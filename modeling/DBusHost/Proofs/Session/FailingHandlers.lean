import DBusHost.Proofs.Session.AtMostOnce
import DBusHost.Proofs.Session.Lock
import DBusHost.Proofs.Session.TwoRuns

/-!
# Handlers that fail are invisible

Whether a handler returns or raises an exception after its last action makes no difference to a
session, except that the exception is logged.  All steps answer the same, the same is given to the
same handlers, and everything that the host and the native library hold is the same afterwards.

A step by which a reply comes in returns whatever the handler does.
-/

namespace DBusHost

open Host Mishap

variable {α β : Type} {m : Mishap}

/-! ## One more event -/

namespace Mishap

/-- The events are the same, except that the handler that has the mishap, where it returned, raises
an exception, which is logged. -/
def Extra (m : Mishap) (es es' : List Event) : Prop :=
  ∃ p w before during after,
    es = before ++ .started p m.handler w :: (during ++ (Event.ending p none ++ after)) ∧
    es' = before ++ .started p m.handler w ::
      (during ++ (Event.ending p (raisedClass m.className m.text) ++ after))

theorem Extra.append {es es' : List Event} (h : m.Extra es es') (xs ys : List Event) :
    m.Extra (xs ++ es ++ ys) (xs ++ es' ++ ys) := by
  obtain ⟨p, w, before, during, after, rfl, rfl⟩ := h
  exact ⟨p, w, xs ++ before, during, after ++ ys, by simp, by simp⟩

/-- A handler has done the same in both runs, except that it raises the exception of the mishap in
the second one, unless it has raised one before.  What it raises is logged. -/
def OnlyEnds (m : Mishap) (p : PendingId) (r r' : Unit × Host) : Prop :=
  ∃ (raised : Option String) (before : List Event), r.2.trace = before ++ Event.ending p raised ∧
    r' = ((), { r.2 with trace := before ++
      (Event.ending p (raised.getD (raisedClass m.className m.text))) })

theorem Ends.eq_or {id : String} {raised raised' : Option String} (h : m.Ends id raised raised') :
    raised' = raised ∨
      id = m.handler ∧ raised = none ∧ raised' = some (raisedClass m.className m.text) := by
  rcases h with ⟨-, rfl⟩ | ⟨rfl, rfl⟩
  · exact .inl rfl
  · cases raised with
    | none => exact .inr ⟨rfl, rfl, rfl⟩
    | some className => exact .inl rfl

theorem Ends.length_le {id : String} {raised raised' : Option String}
    (h : m.Ends id raised raised') (p : PendingId) :
    (Event.ending p raised).length ≤ (Event.ending p raised').length := by
  rcases h.eq_or with rfl | ⟨-, rfl, rfl⟩
  · exact Nat.le_refl _
  · exact Nat.le_succ _

theorem Echoes.length_le {es es' : List Event} (h : m.Echoes es es') : es.length ≤ es'.length := by
  induction h with
  | nil => exact Nat.le_refl _
  | outside he _ ih => exact Nat.succ_le_succ ih
  | @handled p id w raised raised' es es' fs fs' _ hend _ ih ihs =>
      have hlength := hend.length_le p
      simp only [List.length_cons, List.length_append]
      omega

/-- There is nothing else in which the events may differ than that there is one event more. -/
theorem Echoes.eq_of_length_le {es es' : List Event} (h : m.Echoes es es')
    (hle : es'.length ≤ es.length) : es' = es := by
  induction h with
  | nil => rfl
  | outside he _ ih => rw [ih (Nat.le_of_succ_le_succ hle)]
  | @handled p id w raised raised' es es' fs fs' h hend hs ih ihs =>
      have hes := h.length_le
      have hfs := hs.length_le
      have hlength := hend.length_le p
      simp only [List.length_cons, List.length_append] at hle
      rcases hend.eq_or with rfl | ⟨-, rfl, rfl⟩
      · rw [ih (by omega), ihs (by omega)]
      · simp only [Event.ending, List.length_cons] at hle
        exact absurd hle (by simp; omega)

/-- With one event more, all that happens until then and afterwards is the same. -/
theorem Echoes.eq_or_extra {es es' : List Event} (h : m.Echoes es es')
    (hle : es'.length ≤ es.length + 1) : es' = es ∨ m.Extra es es' := by
  induction h with
  | nil => exact .inl rfl
  | @outside e es es' he _ ih =>
      rcases ih (Nat.le_of_succ_le_succ hle) with rfl | hextra
      · exact .inl rfl
      · have hcons := hextra.append [e] []
        simp only [List.append_nil] at hcons
        exact .inr hcons
  | @handled p id w raised raised' es es' fs fs' h hend hs ih ihs =>
      have hes := h.length_le
      have hfs := hs.length_le
      simp only [List.length_cons, List.length_append] at hle
      rcases hend.eq_or with rfl | ⟨rfl, rfl, rfl⟩
      · rcases Nat.lt_or_ge es.length es'.length with hlt | hge
        · -- the difference lies in what the handler has done
          obtain rfl := hs.eq_of_length_le (by omega)
          rcases ih (by omega) with rfl | hextra
          · exact .inl rfl
          · have hwithin := hextra.append [.started p id w] (Event.ending p raised' ++ fs')
            simp only [List.cons_append, List.append_assoc] at hwithin
            exact .inr hwithin
        · -- it lies in what happens afterwards
          obtain rfl := h.eq_of_length_le hge
          rcases ihs (by omega) with rfl | hextra
          · exact .inl rfl
          · have hafter := hextra.append (.started p id w :: (es' ++ Event.ending p raised')) []
            simp only [List.cons_append, List.append_assoc, List.append_nil] at hafter
            exact .inr hafter
      · -- it is this end of the handler
        simp only [Event.ending, Option.isSome] at hle
        obtain rfl := h.eq_of_length_le (by simp at hle; omega)
        obtain rfl := hs.eq_of_length_le (by simp at hle; omega)
        exact .inr ⟨p, w, [], es', fs', rfl, rfl⟩

end Mishap

/-! ## Reports -/

/-- The reports of a step in a run, and in the same with a mishap. -/
structure Report.Alike (m : Mishap) (r r' : Report) : Prop where
  answer : r'.answer = r.answer
  deliveries : r'.deliveries = r.deliveries
  events : m.Echoes r.events r'.events

section

variable {run run' : Reacting} {x y : Margin} {depth : ℕ}

theorem twins_reportStep {s s' : Step}
    (hs : m.Twins x y Eq (s.perform run).run (s'.perform run').run) :
    m.Twins x y (Report.Alike m) (reportStep run s) (reportStep run' s') := by
  refine ⟨hs.le, fun h h' hh hx => ?_⟩
  obtain ⟨hresult, halike, hmargin, es, es', hes, hes', hechoes⟩ := hs.agree h h' hh hx
  have hbefore : h'.deliveries = h.deliveries := seen hh fun _ _ => rfl
  have hafter := seen halike (f := Host.deliveries) fun _ _ => rfl
  refine ⟨⟨hresult.symm, ?_, ?_⟩, halike, hmargin, es, es', hes, hes', hechoes⟩
  · change List.drop _ _ = List.drop _ _
    rw [hbefore]
    exact congrArg _ hafter
  · change m.Echoes (List.drop h.trace.length ((s.perform run).run.run h).2.trace)
      (List.drop h'.trace.length ((s'.perform run').run.run h').2.trace)
    rw [hes, hes', List.drop_left, List.drop_left]
    exact hechoes

/-- What all steps, and the same with a mishap, take of a margin. -/
abbrev Step.sumMargin (steps steps' : List Step) : Margin :=
  .of (steps.foldr (fun step n => step.handlers + n) 0) (steps.map Step.extent).sum
    (steps'.map Step.extent).sum

theorem Step.AllAlike.sum_extent_le {steps steps' : List Step} (h : Step.AllAlike m steps steps') :
    (steps.map Step.extent).sum ≤ (steps'.map Step.extent).sum := by
  induction h with
  | nil => exact Nat.le_refl _
  | cons hs _ ih => simpa only [List.map_cons, List.sum_cons] using Nat.add_le_add hs.extent_le ih

theorem twins_reportSteps (hrun : m.Reacts depth run run') {steps steps' : List Step}
    (h : Step.AllAlike m steps steps') (hx : (x + Step.sumMargin steps steps').1 ≤ depth) :
    m.Twins x (x + Step.sumMargin steps steps') (List.Forall₂ (Report.Alike m))
      (reportSteps run steps) (reportSteps run' steps') := by
  induction h generalizing x with
  | nil => exact (twins_pure .nil x).mono (Margin.le_add_of (Nat.le_refl _) x _)
  | @cons s s' rest rest' hs hrest ih =>
      have hsum : x + s.margin s' + Step.sumMargin rest rest' =
          x + Step.sumMargin (s :: rest) (s' :: rest') := by
        simp only [Step.sumMargin, List.foldr_cons, List.map_cons, List.sum_cons, Margin.of_add,
          add_assoc]
      rw [← hsum] at hx ⊢
      have hle : x + s.margin s' ≤ x + s.margin s' + Step.sumMargin rest rest' :=
        Margin.le_add_of (Step.AllAlike.sum_extent_le hrest) _ _
      have hstep := twins_reportStep (twins_step hrun hs (Nat.le_trans hle.1 hx))
      refine hstep.bind (fun r r' hr => ?_) hle
      exact (ih hx).map fun rs rs' hrs => .cons hr hrs

end

/-- A session and the same in which one handler raises an exception lead from the start to alike
hosts, and there is one event more at most. -/
theorem Script.agree_raising (s : Script) (className text : String) {k : ℕ} {id : String}
    (hk : s.handlerIds[k]? = some id) :
    Agree ⟨id, s.handlerIds.eraseIdx k, className, text⟩ (s.handlers, 1)
      (List.Forall₂ (Report.Alike ⟨id, s.handlerIds.eraseIdx k, className, text⟩))
      (.start s.validator s.failures) (.start s.validator s.failures)
      (reportSteps (reactWithin s.handlers) s.steps)
      (reportSteps (reactWithin (s.raising className text k).handlers)
        (s.raising className text k).steps) := by
  let m : Mishap := ⟨id, s.handlerIds.eraseIdx k, className, text⟩
  have halike : Step.AllAlike m s.steps (Step.listRaising className text s.steps k) :=
    Step.allAlike_raising ⟨hk, fun _ hid => hid⟩
  have hhandlers : (s.raising className text k).handlers = s.handlers :=
    Script.handlers_eq_of_alike halike
  have hmore : 0 + Step.sumMargin s.steps (Step.listRaising className text s.steps k) ≤
      (s.handlers, 1) := by
    have hle := Step.sum_extent_listRaising_le className text s.steps k
    rw [zero_add]
    refine ⟨Nat.le_refl _, ?_⟩
    simp only [Margin.of]
    omega
  have hstart : Host.Alike m (.start s.validator s.failures) (.start s.validator s.failures) :=
    .intro .nil []
  have hnone : Margin.Admits 0 (.start s.validator s.failures) (.start s.validator s.failures) :=
    ⟨Nat.le_refl _, le_refl _⟩
  rw [hhandlers]
  have htwins := twins_reportSteps (reacts_reactWithin s.handlers) halike hmore.1
  exact (htwins.mono hmore).agree _ _ hstart hnone

/-! ## Steps that fail -/

namespace Session

/-- The part of a session answers, whatever the state. -/
def Answers (s : Session α) : Prop := ∀ h, ∃ a, (s.run.run h).1 = .ok a

/-- Nothing has happened if the part of a session fails. -/
def FailsEarly (s : Session α) : Prop := ∀ h f, (s.run.run h).1 = .error f → (s.run.run h).2 = h

theorem answers_lift (w : StateM Host α) : Answers (liftM w : Session α) := fun _ => ⟨_, rfl⟩

section

variable {s : Session α} {k : α → Session β}

theorem Answers.bind (hs : Answers s) (hk : ∀ a, Answers (k a)) : Answers (s >>= k) := by
  intro h
  obtain ⟨a, ha⟩ := hs h
  obtain ⟨b, hb⟩ := hk a (s.run.run h).2
  rw [run_bind, show s.run.run h = (.ok a, (s.run.run h).2) from Prod.ext ha rfl]
  exact ⟨b, hb⟩

theorem Answers.failsEarly (hs : Answers s) : FailsEarly s := by
  intro h f hf
  obtain ⟨a, ha⟩ := hs h
  exact absurd (ha.symm.trans hf) (by simp)

theorem failsEarly_throw (f : Fault) : FailsEarly (throw f : Session α) := fun _ _ _ => rfl

/-- A part that changes nothing comes first. -/
theorem failsEarly_bind (hs : Moves (· = ·) s.run) (hk : ∀ a, FailsEarly (k a)) :
    FailsEarly (s >>= k) := by
  intro h f hf
  have hsame : h = (s.run.run h).2 := hs h
  rw [run_bind] at hf ⊢
  rcases hrun : s.run.run h with ⟨g | a, h'⟩
  · rw [hrun] at hsame
    exact hsame.symm
  · rw [hrun] at hf hsame
    exact (hk a h' f hf).trans hsame.symm

theorem FailsEarly.bind (hs : FailsEarly s) (hk : ∀ a, Answers (k a)) : FailsEarly (s >>= k) := by
  intro h f hf
  have hearly := hs h
  rw [run_bind] at hf ⊢
  rcases hrun : s.run.run h with ⟨g | a, h'⟩
  · rw [hrun] at hearly
    exact hearly g rfl
  · rw [hrun] at hf
    obtain ⟨b, hb⟩ := hk a h'
    exact absurd (hb.symm.trans hf) (by simp)

end

end Session

section

variable {run : Reacting}

theorem failsEarly_block (run : Reacting) (p : PendingId) :
    Session.FailsEarly (Pending.block run p) :=
  Session.failsEarly_bind (reads_openCall p) fun _ => Session.Answers.failsEarly <|
    (Session.answers_lift _).bind fun _ => (Session.answers_lift _).bind fun _ =>
    (Session.answers_lift _).bind fun _ => Session.answers_lift _

/-- A step by which a reply may come in fails only before the reply has come in. -/
theorem Step.failsEarly {s : Step} (hs : s.MayDeliver) : Session.FailsEarly (s.perform run) := by
  have hdone : ∀ x : Answer, Session.Answers (pure x) := fun x _ => ⟨x, rfl⟩
  cases s with
  | call s =>
      cases s with
      | replyArrives name =>
          exact Session.failsEarly_bind (Session.reads_lineNamed name) fun _ =>
            Session.Answers.failsEarly ((Session.answers_lift _).bind fun _ => hdone _)
      | block name =>
          refine Session.failsEarly_bind (Session.reads_thing name) fun t => ?_
          cases t with
          | pending p => exact (failsEarly_block run p).bind fun _ => hdone _
          | handle c =>
              exact Session.failsEarly_bind (Session.reads_attachedCall c) fun _ =>
                Session.Answers.failsEarly ((Session.answers_lift _).bind fun _ => hdone _)
          | _ => exact Session.failsEarly_throw _
      | _ => exact hs.elim
  | _ => exact hs.elim

/-- No handler has been started by a step that fails. -/
theorem Step.aside_of_error {s : Step} {h : Host} {f : Fault}
    (hf : ((s.perform run).run.run h).1 = .error f) : Aside h ((s.perform run).run.run h).2 := by
  by_cases hs : s.MayDeliver
  · rw [Step.failsEarly hs h f hf]
    exact refl_of Aside h
  · exact moves_otherStep hs h

end

/-! ## Sessions -/

/-- There are not less actions in the slots of a host with a mishap. -/
theorem Host.Alike.total_extent_le {h h' : Host} (hh : Host.Alike m h h') :
    h.total Reaction.extent ≤ h'.total Reaction.extent := by
  obtain ⟨hpendings, trace⟩ := hh
  simp only [Host.total]
  generalize h.pendings = ps at hpendings
  induction hpendings with
  | nil => exact Nat.le_refl _
  | cons hp _ ih =>
      simpa only [List.map_cons, List.sum_cons] using Nat.add_le_add hp.slot.extent_le ih

/-- A handler that raises an exception after its last action does the same as one that returns,
and then the exception is logged. -/
theorem onlyEnds_react (m : Mishap) (depth : ℕ) (p : PendingId) (w : WrapperId) (i : MessageId)
    (id : String) (actions : List Action) (h : Host) :
    m.OnlyEnds p ((react (reactWithin (depth + 1)) p w i (.handler id actions)).run h)
      ((react (reactWithin (depth + 1)) p w i
        (.handler id (actions ++ [.raise m.className m.text]))).run h) := by
  rw [react_handler, react_handler, run_handled, run_handled]
  dsimp only
  refine ⟨_, _, rfl, ?_⟩
  have hraise : ∀ n, reactWithin (depth + 1) w n (actions ++ [.raise m.className m.text]) =
      (fun raised => some (raised.getD (raisedClass m.className m.text))) <$>
        reactWithin (depth + 1) w n actions := fun n =>
    runActions_append_raise _ w n actions m.className m.text
  simp only [hraise]
  rfl

/-- Let one handler of a session, whichever it is and wherever it runs, raise an exception after
its last action instead of returning.  Then all steps answer the same, the same replies are given
to the same handlers, whose steps answer the same, and in the end there is no difference in what
the host and the native library hold, except that a handler that has not run is still the other
one.  What has happened on the way is the same, except that the handler ends with the exception and
the exception is logged; there is one such record at most, since the handler runs at most once.  A
step during which a handler has been started does not fail, and wherever the handler is run, it is
the record that makes the difference. -/
theorem Script.run_raising (s : Script) (className text : String) {k : ℕ} {id : String}
    (hk : s.handlerIds[k]? = some id) :
    let m : Mishap := ⟨id, s.handlerIds.eraseIdx k, className, text⟩
    let s' := s.raising className text k
    List.Forall₂ (Report.Alike m) s.reports s'.reports ∧
      Host.Alike m s.run.2 s'.run.2 ∧
      m.Echoes s.run.2.trace s'.run.2.trace ∧
      (s'.run.2.trace = s.run.2.trace ∨ m.Extra s.run.2.trace s'.run.2.trace) ∧
      (∀ (depth : ℕ) (step : Step) (h : Host) (f : Fault),
        ((step.perform (reactWithin depth)).run.run h).1 = .error f →
        Aside h ((step.perform (reactWithin depth)).run.run h).2) ∧
      ∀ (depth : ℕ) (p : PendingId) (w : WrapperId) (i : MessageId) (actions : List Action)
        (h : Host),
        m.OnlyEnds p ((react (reactWithin (depth + 1)) p w i (.handler id actions)).run h)
          ((react (reactWithin (depth + 1)) p w i
            (.handler id (actions ++ [.raise className text]))).run h) := by
  intro m s'
  obtain ⟨hreports, hhost, hmargin, es, es', hes, hes', hechoes⟩ :=
    s.agree_raising className text hk
  have htrace : s.run.2.trace = es := hes
  have htrace' : s'.run.2.trace = es' := hes'
  have hhost' : Host.Alike m s.run.2 s'.run.2 := hhost
  have hmore : es'.length ≤ es.length + 1 := by
    -- what is still in slots is not less with the mishap
    have hextent : (s'.run.2.extent : ℤ) ≤ s.run.2.extent + 1 := hmargin.extent
    have htotal := hhost'.total_extent_le
    rw [Host.extent, Host.extent, htrace, htrace'] at hextent
    omega
  rw [htrace, htrace']
  exact ⟨hreports, hhost', hechoes, hechoes.eq_or_extra hmore,
    fun _ _ _ _ hf => Step.aside_of_error hf,
    fun depth p w i actions h => onlyEnds_react m depth p w i id actions h⟩

/-- A session with a handler that is run while another one runs, and that cancels and drops its own
pending call. -/
def Script.withInnerHandler : Script where
  validator := .ofRefusals [] []
  failures := []
  steps := [
    .expect "outer" (.handler "a" [
      .step (.expect "inner" (.handler "b" [
        .step (.call (.cancel "inner")),
        .step (.thing (.drop "inner"))]) (some { kind := 2 }) true),
      .step (.call (.replyArrives "inner"))]) (some { kind := 2 }) true,
    .call (.replyArrives "outer")]

/-- If the inner handler raises an exception, it is logged, and that is all. -/
theorem Script.run_raising_inner :
    withInnerHandler.handlerIds[1]? = some "b" ∧
      List.Forall₂ (Report.Alike ⟨"b", ["a"], "ValueError", "no"⟩) withInnerHandler.reports
        (withInnerHandler.raising "ValueError" "no" 1).reports ∧
      Host.Alike ⟨"b", ["a"], "ValueError", "no"⟩ withInnerHandler.run.2
        (withInnerHandler.raising "ValueError" "no" 1).run.2 ∧
      Extra ⟨"b", ["a"], "ValueError", "no"⟩ withInnerHandler.run.2.trace
        (withInnerHandler.raising "ValueError" "no" 1).run.2.trace := by
  have hk : withInnerHandler.handlerIds[1]? = some "b" := rfl
  obtain ⟨hreports, hhost, -, hsame | hextra, -, -⟩ :=
    Script.run_raising withInnerHandler "ValueError" "no" hk
  · exact absurd (congrArg List.length hsame) (by decide +kernel)
  · exact ⟨hk, hreports, hhost, hextra⟩

end DBusHost
