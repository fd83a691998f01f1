import DBusHost.Proofs.Session.Completing
import DBusHost.Proofs.Session.Inversion

/-!
# Nested replies come to an end

A handler that waits for a call lets its reply come in, which starts another handler, and so on;
handlers may wait for one another's calls and for their own.  Neither the handlers nor the calls
say how deep this goes.  What gets less is the number of calls that have not completed: a handler
is started by the completion of a call, and a call completes once.

So no more handlers run inside one another than there were calls left to complete.  How handlers
would run beyond that depth makes no difference, since no handler gets there.
-/

namespace DBusHost

open Host

/-- How handlers run, given how those run that are nested `depth` deep. -/
def reactAbove (run : Reacting) : Nat → Reacting
  | 0 => run
  | depth + 1 => fun w n actions =>
      runActions (Step.perform (reactAbove run depth)) w n actions

theorem reactWithin_eq (depth : Nat) :
    reactWithin depth = reactAbove (fun _ _ _ => return none) depth := by
  induction depth with
  | zero => rfl
  | succ depth ih => rw [reactWithin, reactAbove, ih]

section

variable {α β : Type} {n j k : Nat}

/-- From states with less than `n` calls to complete the two computations do the same, and start
at most `j` handlers more than they complete calls. -/
def Coincide (n j : Nat) (w w' : StateM Host α) : Prop :=
  ∀ h : Host, h.IsClosed → h.incomplete < n → w.run h = w'.run h ∧ Spends j h (w.run h).2

theorem Coincide.of_moves {w : StateM Host α} (hw : Moves (Spends j) w) : Coincide n j w w :=
  fun h _ _ => ⟨rfl, hw h⟩

/-- The two computations come to the same answer, of which something is known. -/
theorem Coincide.bind_of {P : α → Prop} {w w' : StateM Host α} {f f' : α → StateM Host β}
    (hw : Coincide n j w w') (hP : ∀ h : Host, h.IsClosed → P (w.run h).1)
    (hf : ∀ a, P a → Coincide n k (f a) (f' a)) : Coincide n (j + k) (w >>= f) (w' >>= f') := by
  intro h hclosed hlt
  obtain ⟨heq, hspends⟩ := hw h hclosed hlt
  obtain ⟨heq', hspends'⟩ := hf _ (hP h hclosed) (w.run h).2 (hclosed.spends hspends)
    (Nat.lt_of_le_of_lt hspends.fewer hlt)
  refine ⟨?_, hspends.trans hspends'⟩
  rw [StateT.run_bind, StateT.run_bind, ← heq]
  exact heq'

theorem Coincide.bind {w w' : StateM Host α} {f f' : α → StateM Host β} (hw : Coincide n 0 w w')
    (hf : ∀ a, Coincide n k (f a) (f' a)) : Coincide n k (w >>= f) (w' >>= f') :=
  k.zero_add ▸ hw.bind_of (P := fun _ => True) (fun _ _ => trivial) fun a _ => hf a

/-- Computations that do the same once they have looked at the state. -/
theorem Coincide.get {f f' : Host → StateM Host α} (hf : ∀ h, Coincide n j (f h) (f' h)) :
    Coincide n j (MonadState.get >>= f) (MonadState.get >>= f') := fun h => hf h h

theorem Coincide.session_bind {s s' : Session α} {f f' : α → Session β}
    (hs : Coincide n 0 s.run s'.run) (hf : ∀ a, Coincide n k (f a).run (f' a).run) :
    Coincide n k (s >>= f).run (s' >>= f').run := by
  rw [ExceptT.run_bind, ExceptT.run_bind]
  refine hs.bind fun e => ?_
  cases e with
  | ok a => exact hf a
  | error e =>
      have hpure : Moves (Spends 0) (pure (.error e) : StateM Host (Except Fault β)) :=
        moves_pure _
      exact .of_moves (hpure.mono fun _ _ hh => hh.mono k.zero_le)

theorem Coincide.lift {w w' : StateM Host α} (hw : Coincide n j w w') :
    Coincide n j (liftM w : Session α).run (liftM w' : Session α).run := by
  intro h hclosed hlt
  obtain ⟨heq, hspends⟩ := hw h hclosed hlt
  exact ⟨congrArg (fun r : α × Host => (Except.ok r.1, r.2)) heq, hspends⟩

/-- The two ways for handlers to run do the same with handlers that make no calls. -/
def Reacting.CoincideWith (n : Nat) (run run' : Reacting) : Prop :=
  ∀ w i actions, (∀ a ∈ actions, Action.MakesNoCall a) →
    Coincide n 0 (run w i actions) (run' w i actions)

variable {run run' : Reacting}

/-! ## Calling a notify function -/

theorem spends_lock : Moves (Spends 0) lock :=
  fun _ => spends_of_same [.locked] rfl rfl rfl (by simp [Event.isStart])

theorem spends_unlock : Moves (Spends 0) unlock :=
  fun _ => spends_of_same [.unlocked] rfl rfl rfl (by simp [Event.isStart])

theorem spends_frames (f : Host → List Frame) :
    Moves (Spends 0) (modify fun h : Host => { h with frames := f h }) :=
  fun _ => spends_of_same [] rfl rfl (List.append_nil _).symm (by simp)

theorem spends_approach (c : CallId) (p : PendingId) : Moves (Spends 0) (approach c p) := by
  refine spends_lock.bind fun _ => (moves_takeSlot p).bind fun reaction =>
    (moves_stealReply c).bind fun reply => ?_
  cases reply with
  | none =>
      exact (spends_record rfl).bind fun _ => (spends_record rfl).bind fun _ =>
        spends_unlock.bind fun _ => moves_pure _
  | some m =>
      exact (spends_adopt (.message m)).bind fun w => (spends_frames _).bind fun _ => moves_pure _

/-- The reaction to a reply is what was in the slot. -/
theorem reaction_approach (c : CallId) (p : PendingId) (h : Host) :
    ∀ x ∈ ((approach c p).run h).1, x.2.2.2 = (h.pending p).slot := by
  rw [run_approach]
  cases (h.call c).reply with
  | none => simp
  | some m =>
      rintro _ ⟨⟩
      rfl

theorem spends_greet (o : Option (PendingId × WrapperId × MessageId × Reaction)) :
    Moves (Spends 1) (greet o) := by
  have hpure : Moves (Spends 1) (pure o : StateM Host _) :=
    (moves_pure (R := Spends 0) o).mono fun _ _ hh => hh.mono (Nat.zero_le 1)
  match o with
  | none | some (_, _, _, .absent) | some (_, _, _, .inert) => exact hpure
  | some (p, w, m, .handler id actions) =>
      exact fun h => ⟨fun _ => rfl, fun _ => .inl rfl, Nat.le_refl _, [.started p id w], rfl,
        Nat.le_of_eq (Nat.add_comm 1 h.incomplete)⟩

theorem coincide_runHandler (hrun : Reacting.CoincideWith n run run') (p : PendingId)
    (w : WrapperId) (m : MessageId) (id : String) {actions : List Action}
    (hactions : ∀ a ∈ actions, Action.MakesNoCall a) :
    Coincide n 0 (runHandler run p w m id actions) (runHandler run' p w m id actions) := by
  refine .get fun h => .get fun h' => .get fun h'' => ?_
  have hobjects : Moves (Spends 0) (Session.result
      (Session.attempt (((h''.message? m).getD { kind := noType }).objects h'.validator))) :=
    Session.moves_result (moves_serene (Session.serene_attempt _))
  refine (Coincide.of_moves hobjects).bind fun objects => ?_
  have hadd : Moves (Spends 0) (modify fun s : Host => { s with deliveries := s.deliveries ++
      [⟨id, ((h''.message? m).getD { kind := noType }).kind, objects, []⟩] }) :=
    moves_serene (serene_modify (fun _ => rfl) fun _ => rfl)
  refine (Coincide.of_moves hadd).bind fun _ =>
    (hrun w _ actions hactions).bind fun raised => ?_
  have hfinished : Moves (Spends 0) (record (.finished p raised)) := spends_record rfl
  refine .of_moves (hfinished.bind fun _ => ?_)
  split
  · exact spends_record rfl
  · exact moves_pure _

theorem coincide_closing (hrun : Reacting.CoincideWith n run run')
    {o : Option (PendingId × WrapperId × MessageId × Reaction)}
    (ho : ∀ x ∈ o, x.2.2.2.MakesNoCall) : Coincide n 0 (closing run o) (closing run' o) := by
  match o with
  | none => exact .of_moves (moves_pure _)
  | some (p, w, m, reaction) =>
      have hreaction : reaction.MakesNoCall := ho _ rfl
      have hleave : Moves (Spends 0) leave := spends_unlock.bind fun _ => spends_frames _
      have hend : Coincide n 0 (leave >>= fun _ => letGoWrapper w)
          (leave >>= fun _ => letGoWrapper w) :=
        .of_moves (hleave.bind fun _ => spends_letGoWrapper w)
      refine Coincide.bind ?_ fun _ => hend
      cases reaction with
      | absent => exact .of_moves (moves_pure _)
      | inert => exact .of_moves (spends_record rfl)
      | handler id actions => exact coincide_runHandler hrun p w m id hreaction

theorem coincide_deliver (hrun : Reacting.CoincideWith n run run') (c : CallId) (p : PendingId) :
    Coincide n 1 (deliver run c p) (deliver run' c p) := by
  rw [deliver_eq, deliver_eq, bind_assoc, bind_assoc]
  refine Coincide.bind_of (j := 0) (k := 1) (P := fun o => ∀ x ∈ o, x.2.2.2.MakesNoCall)
    (.of_moves (spends_approach c p)) (fun h hclosed x hx => ?_) fun o ho => ?_
  · rw [reaction_approach c p h x hx]
    exact hclosed.slot p
  · refine Coincide.bind_of (j := 1) (k := 0) (P := fun o => ∀ x ∈ o, x.2.2.2.MakesNoCall)
      (.of_moves (spends_greet o)) (fun h _ => ?_) fun o ho => coincide_closing hrun ho
    match o with
    | none | some (_, _, _, .absent) | some (_, _, _, .inert) => exact ho
    | some (p, w, m, .handler id actions) => exact ho

theorem coincide_notify (hrun : Reacting.CoincideWith n run run') (c : CallId) (r : Registration) :
    Coincide n 1 (notify run c r) (notify run' c r) := by
  have hpure : Coincide n 1 (pure () : StateM Host Unit) (pure ()) :=
    .of_moves ((moves_pure (R := Spends 0) ()).mono fun _ _ hh => hh.mono (Nat.zero_le 1))
  unfold notify Callbacks.notify
  split
  · refine (Coincide.of_moves (spends_record rfl)).bind fun _ => ?_
    cases r.data with
    | slot p => exact coincide_deliver hrun c p
    | note x => exact hpure
  · exact hpure

/-! ## Completing a call -/

theorem countP_modify_succ {f : Call → Call} {calls : List Call} {c : CallId}
    (hlt : c < calls.length) (hbefore : calls[c].completed = false)
    (hafter : (f calls[c]).completed = true) :
    (calls.modify c f).countP (fun call => !call.completed) + 1 =
      calls.countP fun call => !call.completed := by
  induction calls generalizing c with
  | nil => exact absurd hlt (Nat.not_lt_zero c)
  | cons call calls ih =>
      cases c with
      | zero =>
          simp only [List.getElem_cons_zero] at hbefore hafter
          simp [List.modify_zero_cons, hbefore, hafter]
      | succ c =>
          have hrest := ih (Nat.lt_of_succ_lt_succ hlt) hbefore hafter
          simp only [List.modify_succ_cons, List.countP_cons]
          omega

/-- A call that completes is one call less to complete. -/
theorem incomplete_mark {h : Host} {c : CallId} (hlt : c < h.calls.length)
    (hbefore : (h.call c).completed = false) :
    ((mark c).run h).2.incomplete + 1 = h.incomplete := by
  have hcall : h.call c = h.calls[c] := by simp [Host.call, hlt]
  exact countP_modify_succ hlt (hcall ▸ hbefore) rfl

theorem spends_mark (c : CallId) : Moves (Spends 0) (mark c) :=
  (spends_record rfl).bind fun _ => spends_modifyCall c (fun _ => rfl) fun _ _ => rfl

/-- The completion of a call pays for one handler. -/
theorem spends_of_mark {h h' : Host} {c : CallId} (hlt : c < h.calls.length)
    (hbefore : (h.call c).completed = false) (hh : Spends 1 ((mark c).run h).2 h') :
    Spends 0 h h' := by
  have hone := incomplete_mark hlt hbefore
  have hall := (spends_mark c h).trans hh
  obtain ⟨es, hes, hle⟩ := hh.started
  refine ⟨hall.kind, hall.slot, hall.fewer, .completed c :: es, ?_, ?_⟩
  · rw [hes]
    exact List.append_assoc h.trace [.completed c] es
  · rw [List.countP_cons_of_neg (by simp [Event.isStart])]
    omega

theorem coincide_complete (hrun : Reacting.CoincideWith n run run') (c : CallId) :
    Coincide (n + 1) 0 (complete run c) (complete run' c) := by
  intro h hclosed hlt
  cases hready : (h.call c).isReady with
  | false =>
      rw [Callbacks.complete_of_not_isReady _ hready, Callbacks.complete_of_not_isReady _ hready]
      exact ⟨rfl, refl_of (Spends 0) h⟩
  | true =>
      rw [Callbacks.complete_of_isReady _ hready, Callbacks.complete_of_isReady _ hready]
      rcases Nat.lt_or_ge c h.calls.length with hc | hc
      · have hbefore : (h.call c).completed = false := by
          simp only [Call.isReady, hclosed.native c, Bool.and_eq_true, Bool.not_eq_true'] at hready
          exact hready.1
        have hone := incomplete_mark hc hbefore
        obtain ⟨heq, hnotify⟩ := coincide_notify hrun c (h.call c).registration ((mark c).run h).2
          (hclosed.spends (spends_mark c h)) (by omega)
        exact ⟨congrArg (fun x => (true, x.2)) heq, spends_of_mark hc hbefore hnotify⟩
      · -- What does not exist has nothing registered.
        rw [call_of_length_le hc, Callbacks.run_notify, Callbacks.run_notify]
        exact ⟨rfl, spends_mark c h⟩

theorem coincide_blockCall (hrun : Reacting.CoincideWith n run run') (c : CallId) :
    Coincide (n + 1) 0 (blockCall run c) (blockCall run' c) :=
  (Coincide.of_moves (spends_record rfl)).bind fun _ =>
    (coincide_complete hrun c).bind fun _ => .of_moves (moves_pure _)

theorem spends_wait (f : List PendingId → List PendingId) :
    Moves (Spends 0) (modify fun h : Host => { h with waiting := f h.waiting }) :=
  fun _ => spends_of_same [] rfl rfl (List.append_nil _).symm (by simp)

theorem coincide_block (hrun : Reacting.CoincideWith n run run') (p : PendingId) :
    Coincide (n + 1) 0 (Pending.block run p).run (Pending.block run' p).run := by
  have hread : Moves (Spends 0) (Pending.openCall p).run := (reads_openCall p).of_eq
  have hend : Moves (Spends 0) (do
      modify fun h => { h with waiting := h.waiting.tail }
      letGo (.pending p) : Session Unit).run :=
    Session.moves_bind (Session.moves_lift (spends_wait List.tail)) fun _ =>
      Session.moves_lift (moves_letGo (.pending p))
  exact (Coincide.of_moves hread).session_bind fun c =>
    (Coincide.of_moves (Session.moves_lift (spends_wait (p :: ·)))).session_bind
    fun _ => (coincide_blockCall hrun c).lift.session_bind
    fun _ => .of_moves hend

/-! ## Running a handler -/

/-- Steps by which a reply comes in. -/
theorem coincide_deliveringStep (hrun : Reacting.CoincideWith n run run') {s : CallStep}
    (hs : s.MayDeliver) : Coincide (n + 1) 0 (s.perform run).run (s.perform run').run := by
  have hpure : ∀ a,
      Coincide (n + 1) 0 (pure a : Session Answer).run (pure a : Session Answer).run :=
    fun a => .of_moves (Session.moves_pure a)
  cases s with
  | replyArrives name =>
      have hread : Moves (Spends 0) (Session.lineNamed name).run :=
        (Session.reads_lineNamed name).of_eq
      exact (Coincide.of_moves hread).session_bind fun c =>
        (coincide_complete hrun c).lift.session_bind fun _ => hpure _
  | block name =>
      have hread : Moves (Spends 0) (Session.thing name).run := (Session.reads_thing name).of_eq
      refine (Coincide.of_moves hread).session_bind fun t => ?_
      cases t with
      | pending p =>
          exact (coincide_block hrun p).session_bind fun _ => hpure _
      | handle c =>
          have hattached : Moves (Spends 0) (Session.attachedCall c).run :=
            (Session.reads_attachedCall c).of_eq
          exact (Coincide.of_moves hattached).session_bind fun d =>
            (coincide_blockCall hrun d).lift.session_bind fun _ => hpure _
      | _ => exact .of_moves (Session.moves_throw _)
  | _ => exact hs.elim

/-- Steps may let one more call complete than the handlers that they start. -/
theorem coincide_step (hrun : Reacting.CoincideWith n run run') {s : Step} (hs : s.MakesNoCall) :
    Coincide (n + 1) 0 (s.perform run).run (s.perform run').run := by
  by_cases hdelivers : s.MayDeliver
  · cases s with
    | call s => exact coincide_deliveringStep hrun hdelivers
    | _ => exact hdelivers.elim
  · have heq : s.perform run = s.perform run' := by
      cases s with
      | call s => cases s <;> first | exact absurd trivial hdelivers | rfl
      | _ => rfl
    rw [heq]
    exact .of_moves (spends_step hs hdelivers)

theorem coincide_runActions {perform perform' : Step → Session Answer}
    (hperform : ∀ s : Step, s.MakesNoCall → Coincide n 0 (perform s).run (perform' s).run)
    (w : WrapperId) (i : Nat) {actions : List Action}
    (hactions : ∀ a ∈ actions, Action.MakesNoCall a) :
    Coincide n 0 (runActions perform w i actions) (runActions perform' w i actions) := by
  induction actions with
  | nil => exact .of_moves (moves_pure _)
  | cons a rest ih =>
      have hrest := ih fun b hb => hactions b (.tail a hb)
      cases a with
      | raise className text => exact .of_moves (moves_pure _)
      | raiseIfError =>
          have hraise : Moves (Spends 0) (Session.raiseReported w).result :=
            Session.moves_result (moves_serene (serene_raiseReported w))
          refine (Coincide.of_moves hraise).bind fun e => ?_
          cases e with
          | ok u => exact hrest
          | error f => exact .of_moves (moves_pure _)
      | keep name =>
          have hkeep : Moves (Spends 0) (assign name (.wrapper w)) := moves_assign name (by simp)
          exact (Coincide.of_moves hkeep).bind fun _ => hrest
      | step s =>
          have hnote : ∀ a, Moves (Spends 0) (noteAction i a) :=
            fun a => moves_serene (serene_noteAction i a)
          have hs : s.MakesNoCall := hactions (.step s) (.head rest)
          exact (hperform s hs).bind fun a =>
            (Coincide.of_moves (hnote a)).bind fun _ => hrest

/-- With less than `n` calls to complete, what happens does not depend on how handlers would run
that are nested more than `n` deep. -/
theorem coincide_reactAbove (run run' : Reacting) (n : Nat) {depth depth' : Nat}
    (hdepth : n ≤ depth) (hdepth' : n ≤ depth') :
    (reactAbove run depth).CoincideWith n (reactAbove run' depth') := by
  induction n generalizing depth depth' with
  | zero => exact fun _ _ _ _ _ _ hlt => absurd hlt (Nat.not_lt_zero _)
  | succ n ih =>
      obtain ⟨depth, rfl⟩ := Nat.exists_eq_add_of_le' hdepth
      obtain ⟨depth', rfl⟩ := Nat.exists_eq_add_of_le' hdepth'
      intro w i actions hactions
      have hrun := ih (Nat.le_add_left n depth) (Nat.le_add_left n depth')
      exact coincide_runActions (fun s => coincide_step hrun) w i hactions

end

/-- So many handlers are started at most. -/
def StartsAtMost (n : Nat) (h h' : Host) : Prop :=
  ∃ es, h'.trace = h.trace ++ es ∧ es.countP Event.isStart ≤ n

theorem Host.Spends.startsAtMost {h h' : Host} (hh : Spends 0 h h') :
    StartsAtMost h.incomplete h h' := by
  obtain ⟨es, hes, hle⟩ := hh.started
  exact ⟨es, hes, Nat.le_trans (Nat.le_add_right _ _) hle⟩

/-- A reply that comes in, or is waited for, comes to an end without handlers that are nested
deeper than there are calls to complete, and no more handlers are started than that. -/
theorem Host.IsClosed.nesting_ends {h : Host} (hclosed : h.IsClosed) (run : Reacting)
    {depth : Nat} (hdepth : h.incomplete ≤ depth) :
    (∀ c, (complete (reactAbove run depth) c).run h =
        (complete (reactWithin h.incomplete) c).run h ∧
      StartsAtMost h.incomplete h ((complete (reactAbove run depth) c).run h).2) ∧
    ∀ p, (Pending.block (reactAbove run depth) p).run.run h =
        (Pending.block (reactWithin h.incomplete) p).run.run h ∧
      StartsAtMost h.incomplete h ((Pending.block (reactAbove run depth) p).run.run h).2 := by
  have hrun := coincide_reactAbove run (fun _ _ _ => return none) h.incomplete hdepth
    (Nat.le_refl h.incomplete)
  rw [← reactWithin_eq] at hrun
  constructor
  · intro c
    obtain ⟨heq, hspends⟩ := coincide_complete hrun c h hclosed (Nat.lt_succ_self _)
    exact ⟨heq, hspends.startsAtMost⟩
  · intro p
    obtain ⟨heq, hspends⟩ := coincide_block hrun p h hclosed (Nat.lt_succ_self _)
    exact ⟨heq, hspends.startsAtMost⟩

/-- Two pending calls.  The handler of each of them waits for both. -/
def Host.crossing : Host :=
  let waits : List Action := [.step (.call (.block "a")), .step (.call (.block "b"))]
  let line : CallId → Call := fun c =>
    ⟨.native, some c, false, false, ⟨true, true, .slot c⟩, ⟨true, true, .slot c⟩, true⟩
  { Host.start (.ofRefusals [] []) [] with
    messages := [{ kind := 2 }, { kind := 2 }]
    calls := [line 0, line 1]
    pendings := [⟨0, true, .handler "first" waits⟩, ⟨1, true, .handler "second" waits⟩]
    names := [("a", .pending 0), ("b", .pending 1)] }

theorem Host.crossing_nesting_ends :
    Host.crossing.IsClosed ∧ Host.crossing.incomplete = 2 ∧
      ∀ p run depth, 2 ≤ depth →
        (Pending.block (reactAbove run depth) p).run.run Host.crossing =
          (Pending.block (reactWithin 2) p).run.run Host.crossing := by
  have hclosed : Host.crossing.IsClosed := by
    constructor
    · rintro (_ | _ | c) <;> rfl
    · rintro (_ | _ | p)
      · simp [crossing, Host.pending, Reaction.MakesNoCall, Action.MakesNoCall, Step.MakesNoCall]
      · simp [crossing, Host.pending, Reaction.MakesNoCall, Action.MakesNoCall, Step.MakesNoCall]
      · trivial
  exact ⟨hclosed, rfl, fun p run depth hdepth => ((hclosed.nesting_ends run hdepth).2 p).1⟩

end DBusHost
