import DBusHost.Proofs.Session.UnaffectedSteps

/-!
# A mishap stays in its handler

An exception that a handler raises ends the handler and nothing else: the notify function that has
started it logs it and goes on.  So the twins of a reply that comes in agree in all but the end of
the handler that has the mishap, and so do the twins of all steps, whatever handlers run in them.

The induction is on how deep handlers may still nest.  It gets along with the handlers that are in
slots, since a handler is taken out of its slot before it runs.
-/

namespace DBusHost

open Host Mishap

variable {α β : Type} {m : Mishap} {depth : ℕ} {run run' : Reacting} {x y z : Margin}

/-! ## Computations within a depth -/

/-- The computations are twins as long as there are so many handlers in slots at most. -/
def Mishap.Paired (m : Mishap) (depth : ℕ) (w w' : StateM Host α) : Prop :=
  ∀ x : Margin, x.1 ≤ depth → m.Twins x x Eq w w'

section

variable {w w' : StateM Host α} {k k' : α → StateM Host β}

theorem Mishap.Unaffected.paired (hw : m.Unaffected w) : m.Paired depth w w := fun x _ => hw x

theorem Mishap.Paired.bind (hw : m.Paired depth w w') (hk : ∀ a, m.Paired depth (k a) (k' a)) :
    m.Paired depth (w >>= k) (w' >>= k') := fun x hx =>
  (hw x hx).bind (fun a _ hab => hab ▸ hk a x hx) (le_refl x)

/-- A computation that looks at the host first, and does the same for alike hosts. -/
theorem Mishap.Paired.get {k k' : Host → StateM Host α}
    (hk : ∀ h h', Host.Alike m h h' → k' h' = k' h) (h : ∀ h, m.Paired depth (k h) (k' h)) :
    m.Paired depth (MonadState.get >>= k) (MonadState.get >>= k') := fun x hx =>
  twins_get hk (le_refl x) fun s => h s x hx

/-- What comes first is not affected by the mishap. -/
theorem Mishap.Unaffected.twins {Q : β → β → Prop} (hw : m.Unaffected w)
    (hk : ∀ a, m.Twins x y Q (k a) (k' a)) (hxy : x ≤ y) :
    m.Twins x y Q (w >>= k) (w >>= k') :=
  (hw x).bind (fun a _ hab => hab ▸ hk a) hxy

end

namespace Session

variable {s s' : Session α} {k k' : α → Session β}

theorem paired_bind (hs : m.Paired depth s.run s'.run)
    (hk : ∀ a, m.Paired depth (k a).run (k' a).run) :
    m.Paired depth (s >>= k).run (s' >>= k').run := fun x hx =>
  twins_bind (hs x hx) (fun a => hk a x hx) (le_refl x)

theorem paired_lift {w w' : StateM Host α} (hw : m.Paired depth w w') :
    m.Paired depth (liftM w : Session α).run (liftM w' : Session α).run :=
  hw.bind fun _ => (Mishap.unaffected_pure _).paired

end Session

/-! ## The end of a handler -/

namespace Host

/-- A delivery begins; the answer is its number. -/
def enterDelivery (i : MessageId) (id : String) : StateM Host Nat := do
  let n := (← get).deliveries.length
  let v := (← get).validator
  let message := ((← get).message? i).getD { kind := noType }
  let objects ← Session.result (Session.attempt (message.objects v))
  modify fun h => { h with deliveries := h.deliveries ++ [⟨id, message.kind, objects, []⟩] }
  return n

/-- A handler has ended. -/
def conclude (p : PendingId) (raised : Option String) : StateM Host Unit := do
  record (.finished p raised)
  if raised.isSome then record (.logged .error handlerFailure raised)

/-- A handler starts, does something, and ends. -/
def handled (p : PendingId) (id : String) (w : WrapperId) (x : StateM Host (Option String)) :
    StateM Host Unit := do
  record (.started p id w)
  conclude p (← x)

theorem react_handler (run : Reacting) (p : PendingId) (w : WrapperId) (i : MessageId)
    (id : String) (actions : List Action) : react run p w i (.handler id actions) =
      handled p id w (enterDelivery i id >>= fun n => run w n actions) := rfl

theorem run_handled (p : PendingId) (id : String) (w : WrapperId)
    (x : StateM Host (Option String)) (h : Host) : (handled p id w x).run h =
      let r := x.run { h with trace := h.trace ++ [.started p id w] }
      ((), { r.2 with trace := r.2.trace ++ Event.ending p r.1 }) := by
  change (conclude p (x.run { h with trace := h.trace ++ [.started p id w] }).1).run
    (x.run { h with trace := h.trace ++ [.started p id w] }).2 = _
  generalize x.run { h with trace := h.trace ++ [.started p id w] } = r
  obtain ⟨raised, h'⟩ := r
  cases raised with
  | none => rfl
  | some className =>
      exact congrArg (fun es => ((), { h' with trace := es })) (List.append_assoc ..)

theorem Alike.withTrace {h h' : Host} (hh : Alike m h h') (es es' : List Event) :
    Alike m { h with trace := es } { h' with trace := es' } := by
  obtain ⟨hpendings, -⟩ := hh
  exact alike_of_eq hpendings rfl

end Host

/-- What a handler does until its end is related, and how it ends is related as the mishap says.
Its end may take of the margin. -/
theorem twins_handled {R : Option String → Option String → Prop}
    {w w' : StateM Host (Option String)} (p : PendingId) {id : String} (v : WrapperId)
    (hw : m.Twins x y R w w') (hyz : y ≤ z)
    (hends : ∀ a b, R a b → m.Ends id a b ∧
      y.2 + (Event.ending p b).length ≤ z.2 + (Event.ending p a).length) :
    m.Twins x z Eq (handled p id v w) (handled p id v w') := by
  refine ⟨le_trans hw.le hyz, fun h h' hh hx => ?_⟩
  have hstarted := hh.withTrace (h.trace ++ [.started p id v]) (h'.trace ++ [.started p id v])
  obtain ⟨hresult, halike, hmargin, es, es', hes, hes', hechoes⟩ := hw.agree _ _ hstarted
    (hx.append rfl rfl rfl rfl (Nat.le_refl _) (le_refl _))
  obtain ⟨hend, hlength⟩ := hends _ _ hresult
  have hblock := Echoes.handled (p := p) (w := v) hechoes hend .nil
  refine ⟨rfl, ?_, ?_, _, _, ?_, ?_, hblock⟩
  · rw [run_handled, run_handled]
    exact halike.withTrace _ _
  · rw [run_handled, run_handled]
    exact hmargin.append rfl rfl rfl rfl hyz.1 hlength
  · rw [run_handled]
    dsimp only
    rw [hes]
    simp
  · rw [run_handled]
    dsimp only
    rw [hes']
    simp

/-! ## Replies that come in -/

/-- Handlers that nest so deep at most run alike.  One that is to have the mishap runs alike as
well, except that it raises an exception. -/
structure Mishap.Reacts (m : Mishap) (depth : ℕ) (run run' : Reacting) : Prop where
  alike {actions actions' : List Action} (h : Action.AllAlike m actions actions') (w : WrapperId)
    (n : ℕ) {x : Margin} (hx : (x + Action.listMargin actions actions').1 < depth) :
    m.Twins x (x + Action.listMargin actions actions') Eq (run w n actions) (run' w n actions')
  mishap {actions actions' : List Action} (h : Action.AllAlike m actions actions') (w : WrapperId)
    (n : ℕ) {x : Margin} (hx : (x + Action.listMargin actions actions').1 < depth) :
    m.Twins x (x + Action.listMargin actions actions')
      (fun raised raised' => raised' = some (raised.getD (raisedClass m.className m.text)))
      (run w n actions) (run' w n (actions' ++ [.raise m.className m.text]))

theorem unaffected_enterDelivery (i : MessageId) (id : String) :
    m.Unaffected (enterDelivery i id) := by
  refine unaffected_get (fun _ _ _ => rfl) fun _ => unaffected_get (fun _ _ _ => rfl) fun _ =>
    unaffected_get (fun _ _ _ => rfl) fun _ => ?_
  refine Unaffected.bind (Session.unaffected_result (Session.unaffected_attempt _)) fun _ => ?_
  exact (unaffected_modify fun _ _ _ => rfl).bind fun _ => unaffected_pure _

theorem length_ending (p : PendingId) (raised : Option String) :
    (Event.ending p raised).length = if raised.isSome then 2 else 1 := by
  cases raised <;> rfl

theorem twins_react (hrun : m.Reacts depth run run') {r r' : Reaction} (hr : Reaction.Alike m r r')
    (hx : (x + r.margin r').1 ≤ depth) (p : PendingId) (w : WrapperId) (i : MessageId) :
    m.Twins x (x + r.margin r') Eq (react run p w i r) (react run' p w i r') := by
  cases hr with
  | absent => exact (twins_pure rfl x).mono (Margin.le_add_of (Nat.le_refl _) x 0)
  | inert =>
      have hlogged : m.Unaffected (record (.logged .error handlerFailure FaultKind.type.name)) :=
        unaffected_record trivial
      exact (hlogged x).mono (Margin.le_add_of (Nat.le_refl _) x 0)
  | @handler id actions actions' hid h =>
      rw [react_handler, react_handler]
      have hlt : (x + Action.listMargin actions actions').1 < depth := by
        simp only [Margin.of, Reaction.handlers, Prod.fst_add] at hx ⊢
        omega
      have hruns := (unaffected_enterDelivery i id).twins (fun n => hrun.alike h w n hlt)
        (Margin.le_add_of h.listExtent_le x _)
      refine twins_handled p w hruns ⟨?_, le_refl _⟩ fun raised raised' hraised => ?_
      · simp only [Margin.of, Reaction.handlers, Prod.fst_add]
        omega
      · obtain rfl := hraised
        exact ⟨.inl ⟨hid, rfl⟩, le_refl _⟩
  | @mishap actions actions' h =>
      rw [react_handler, react_handler]
      have hlt : (x + Action.listMargin actions actions').1 < depth := by
        simp only [Margin.of, Reaction.handlers, Prod.fst_add] at hx ⊢
        omega
      have hruns := (unaffected_enterDelivery i m.handler).twins
        (fun n => hrun.mishap h w n hlt) (Margin.le_add_of h.listExtent_le x _)
      refine twins_handled p w hruns ⟨?_, ?_⟩ fun raised raised' hraised =>
        ⟨.inr ⟨rfl, hraised⟩, ?_⟩
      · simp only [Margin.of, Reaction.handlers, Prod.fst_add]
        omega
      · simp only [Margin.of, Reaction.extent, Action.listExtent_append_raise, Prod.snd_add]
        omega
      · -- the record takes the place of the action by which the handler raises
        subst hraised
        simp only [Margin.of, Reaction.extent, Action.listExtent_append_raise, Prod.snd_add,
          length_ending]
        cases raised with
        | none =>
            simp only [Option.isSome_none, Option.isSome_some, Bool.false_eq_true, if_true,
              if_false]
            omega
        | some kind =>
            simp only [Option.isSome_some, if_true]
            omega

theorem unaffected_lock : m.Unaffected lock := by
  have hdepth : m.Unaffected (modify fun h : Host => { h with lockDepth := h.lockDepth + 1 }) :=
    unaffected_modify fun _ _ _ => rfl
  have hlocked : m.Unaffected (record .locked) := unaffected_record trivial
  exact hdepth.bind fun _ => hlocked

theorem unaffected_unlock : m.Unaffected unlock := by
  have hdepth : m.Unaffected (modify fun h : Host => { h with lockDepth := h.lockDepth - 1 }) :=
    unaffected_modify fun _ _ _ => rfl
  have hunlocked : m.Unaffected (record .unlocked) := unaffected_record trivial
  exact hdepth.bind fun _ => hunlocked

/-- What follows on a handler until the notify function has been left. -/
theorem unaffected_leave (w : WrapperId) : m.Unaffected (do
    unlock
    modify fun h => { h with frames := h.frames.tail }
    letGoWrapper w : StateM Host Unit) :=
  unaffected_unlock.bind fun _ => (unaffected_modify fun _ _ _ => rfl).bind fun _ =>
    unaffected_letGoWrapper w

/-- The notify function drops a reaction that there is no reply for. -/
theorem unaffected_incomplete : m.Unaffected (do
    record (.warned "D-Bus notify function was called for an incomplete pending call")
    record (.logged .warning "notify function called for an incomplete pending call" none)
    unlock : StateM Host Unit) := by
  have hwarned : m.Unaffected (record
      (.warned "D-Bus notify function was called for an incomplete pending call")) :=
    unaffected_record trivial
  have hlogged : m.Unaffected (record
      (.logged .warning "notify function called for an incomplete pending call" none)) :=
    unaffected_record trivial
  exact hwarned.bind fun _ => hlogged.bind fun _ => unaffected_unlock

theorem paired_deliver (hrun : m.Reacts depth run run') (c : CallId) (p : PendingId) :
    m.Paired depth (deliver run c p) (deliver run' c p) := by
  refine unaffected_lock.paired.bind fun _ x hx => twins_takeSlot (le_refl x) ?_ p
  -- the handler is out of its slot now, so what it takes of the margin is free again
  intro y r r' hr hy
  have hyx : y ≤ x := le_trans (Margin.le_add_of hr.extent_le y _) hy
  refine (unaffected_stealReply c).twins (fun reply => ?_) hyx
  cases reply with
  | none => exact (unaffected_incomplete y).mono hyx
  | some i =>
      refine (unaffected_adopt (.message i)).twins (fun w => ?_) hyx
      have hframes : m.Unaffected (modify fun h : Host =>
          { h with frames := ⟨w, r.id?⟩ :: h.frames }) := unaffected_modify fun _ _ _ => rfl
      rw [hr.id?]
      refine hframes.twins (fun _ => ?_) hyx
      have hreact := twins_react hrun hr (Nat.le_trans hy.1 hx) p w i
      exact hreact.bind (fun _ _ _ => (unaffected_leave w _).mono hy) hy

theorem paired_notify (hrun : m.Reacts depth run run') (c : CallId) (r : Registration) :
    m.Paired depth (notify run c r) (notify run' c r) := by
  unfold notify Callbacks.notify
  split
  · have hnotified : m.Unaffected (record (.notified c r.data)) := unaffected_record trivial
    refine hnotified.paired.bind fun _ => ?_
    cases r.data with
    | slot p => exact paired_deliver hrun c p
    | note x => exact (unaffected_pure _).paired
  · exact (unaffected_pure _).paired

theorem paired_complete (hrun : m.Reacts depth run run') (c : CallId) :
    m.Paired depth (complete run c) (complete run' c) := by
  refine Paired.get (fun h h' hh => ?_) fun h => ?_
  · simp only [seen hh (f := fun h => h.call c) fun _ _ => rfl]
  · dsimp only
    split
    · have hcompleted : m.Unaffected (record (.completed c)) := unaffected_record trivial
      exact hcompleted.paired.bind fun _ => (unaffected_modifyCall c _).paired.bind fun _ =>
        (paired_notify hrun c _).bind fun _ => (unaffected_pure _).paired
    · exact (unaffected_pure _).paired

theorem paired_blockCall (hrun : m.Reacts depth run run') (c : CallId) :
    m.Paired depth (blockCall run c) (blockCall run' c) := by
  have hblocked : m.Unaffected (record (.blocked c)) := unaffected_record trivial
  exact hblocked.paired.bind fun _ =>
    (paired_complete hrun c).bind fun _ => (unaffected_pure _).paired

/-! ## Steps -/

/-- Waiting for a call keeps a note of it meanwhile. -/
theorem unaffected_wait (f : List PendingId → List PendingId) :
    m.Unaffected (modify fun h : Host => { h with waiting := f h.waiting }) :=
  unaffected_modify fun _ _ _ => rfl

theorem paired_block (hrun : m.Reacts depth run run') (p : PendingId) :
    m.Paired depth (Pending.block run p).run (Pending.block run' p).run := by
  have hbefore := Session.unaffected_lift (m := m) (unaffected_wait (p :: ·))
  have hafter := Session.unaffected_lift (m := m) (unaffected_wait List.tail)
  refine Session.paired_bind (Session.unaffected_openCall p).paired fun c => ?_
  refine Session.paired_bind hbefore.paired fun _ => ?_
  refine Session.paired_bind (Session.paired_lift (paired_blockCall hrun c)) fun _ => ?_
  refine Session.paired_bind hafter.paired fun _ => ?_
  exact (Session.unaffected_lift (unaffected_letGo (.pending p))).paired

/-- Nobody sees from which handlers are live that one of them has a mishap. -/
theorem Host.Alike.liveHandlers {h h' : Host} (hh : Alike m h h') :
    h'.liveHandlers = h.liveHandlers := by
  obtain ⟨hpendings, trace⟩ := hh
  have hslots : ∀ {ps ps' : List Pending}, List.Forall₂ (Pending.Alike m) ps ps' →
      ps'.filterMap (fun p => p.slot.id?) = ps.filterMap fun p => p.slot.id? := by
    intro ps ps' hps
    induction hps with
    | nil => rfl
    | cons hp _ ih => simp only [List.filterMap_cons, hp.slot.id?, ih]
  simp only [Host.liveHandlers, hslots hpendings]

theorem paired_callStep (hrun : m.Reacts depth run run') (s : CallStep) :
    m.Paired depth (s.perform run).run (s.perform run').run := by
  cases s with
  | replyArrives name =>
      exact Session.paired_bind (Session.unaffected_lineNamed name).paired fun c =>
        Session.paired_bind (Session.paired_lift (paired_complete hrun c)) fun _ =>
        (Session.unaffected_pure _).paired
  | freeData name =>
      refine Unaffected.paired (Session.unaffected_bind (Session.unaffected_lineNamed name) ?_)
      intro c
      refine Session.unaffected_get (fun _ _ _ => rfl) fun h => ?_
      exact Session.unaffected_bind (Session.unaffected_lift (unaffected_freeData c _)) fun _ =>
        Session.unaffected_pure _
  | cancel name =>
      refine Unaffected.paired (Session.unaffected_bind (Session.unaffected_thing name) ?_)
      intro t
      cases t with
      | pending p =>
          exact Session.unaffected_bind (Session.unaffected_lift (unaffected_cancel p)) fun _ =>
            Session.unaffected_pure _
      | handle c =>
          exact Session.unaffected_bind (Session.unaffected_attachedCall c) fun d =>
            Session.unaffected_bind (Session.unaffected_lift (unaffected_cancelCall d)) fun _ =>
            Session.unaffected_pure _
      | _ => exact Session.unaffected_throw _
  | block name =>
      refine Session.paired_bind (Session.unaffected_thing name).paired fun t => ?_
      cases t with
      | pending p =>
          exact Session.paired_bind (paired_block hrun p) fun _ =>
            (Session.unaffected_pure _).paired
      | handle c =>
          exact Session.paired_bind (Session.unaffected_attachedCall c).paired fun d =>
            Session.paired_bind (Session.paired_lift (paired_blockCall hrun d)) fun _ =>
            (Session.unaffected_pure _).paired
      | _ => exact (Session.unaffected_throw _).paired
  | completed name =>
      refine Unaffected.paired (Session.unaffected_bind (Session.unaffected_thing name) ?_)
      intro t
      cases t with
      | pending p =>
          exact Session.unaffected_bind (Session.unaffected_completed p) fun _ =>
            Session.unaffected_pure _
      | _ => exact Session.unaffected_throw _
  | instantiate => exact (Session.unaffected_throw _).paired
  | live =>
      refine Unaffected.paired (Session.unaffected_look (fun h h' hh => ?_) fun _ =>
        Session.unaffected_pure _)
      simp only [hh.liveHandlers]
  | tryLock =>
      exact (Session.unaffected_get (fun _ _ _ => rfl) fun _ => Session.unaffected_pure _).paired
  | newHandle name reply =>
      exact (Session.unaffected_bind (Session.unaffected_lift (unaffected_prepareCall name .native
        reply)) fun c => Session.unaffected_bind (Session.unaffected_lift
        (unaffected_assign name (.handle c))) fun _ => Session.unaffected_pure _).paired
  | setNotify name notifies frees x =>
      exact (Session.unaffected_bind (Session.unaffected_handleNamed name) fun c =>
        Session.unaffected_bind (Session.unaffected_build x) fun x =>
        Session.unaffected_bind (Session.unaffected_attachedCall c) fun d =>
        Session.unaffected_bind (Session.unaffected_lift (unaffected_setNotify d _)) fun _ =>
        Session.unaffected_pure _).paired
  | handleCompleted name =>
      exact (Session.unaffected_bind (Session.unaffected_handleNamed name) fun c =>
        Session.unaffected_bind (Session.unaffected_attachedCall c) fun _ =>
        Session.unaffected_get (fun _ _ _ => rfl) fun _ => Session.unaffected_pure _).paired
  | stealReply name =>
      exact (Session.unaffected_bind (Session.unaffected_handleNamed name) fun c =>
        Session.unaffected_bind (Session.unaffected_attachedCall c) fun d =>
        Session.unaffected_bind (Session.unaffected_lift (unaffected_stealReply d)) fun _ =>
        Session.unaffected_pure _).paired
  | unreference name =>
      exact (Session.unaffected_bind (Session.unaffected_handleNamed name) fun c =>
        Session.unaffected_bind (Session.unaffected_lift (unaffected_unreference c)) fun _ =>
        Session.unaffected_pure _).paired

/-- A reaction that is put into a slot takes of the margin. -/
theorem twins_enlist (c : CallId) {r r' : Reaction} (hr : Reaction.Alike m r r') (x : Margin) :
    m.Twins x (x + r.margin r') Eq (enlist c r) (enlist c r') := by
  have htotal : ∀ (f : Reaction → Nat) (r : Reaction) (h : Host),
      ((enlist c r).run h).2.total f = h.total f + f r := by
    intro f r h
    change ((h.pendings ++ [(⟨c, false, r⟩ : Pending)]).map fun p => f p.slot).sum = _
    simp [Host.total]
  refine ⟨Margin.le_add_of hr.extent_le x _, fun h h' hh hx => ?_⟩
  have hadmits : (x + r.margin r').Admits ((enlist c r).run h).2 ((enlist c r').run h').2 := by
    obtain ⟨hstock, hextent⟩ := hx
    constructor
    case stock =>
      rw [Host.stock, htotal]
      exact Nat.add_le_add_right hstock _
    case extent =>
      have htrace : ∀ r (k : Host), ((enlist c r).run k).2.trace = k.trace := fun _ _ => rfl
      simp only [Host.extent, htotal, htrace, Margin.of, Prod.snd_add] at hextent ⊢
      omega
  obtain ⟨hpendings, trace⟩ := hh
  have hlast : List.Forall₂ (Pending.Alike m) [⟨c, false, r⟩] [⟨c, false, r'⟩] :=
    .cons ⟨rfl, rfl, hr⟩ .nil
  exact ⟨rfl, alike_of_eq (List.rel_append hpendings hlast) rfl, hadmits, [], [],
    (List.append_nil _).symm, (List.append_nil _).symm, .nil⟩

theorem register_eq (c : CallId) (r : Reaction) : (Pending.register c r).run = (do
    let h ← get
    enlist c r
    (enroll c h.pendings.length).run : StateM Host (Except Fault PendingId)) :=
  funext (run_register c r)

theorem twins_register (c : CallId) {r r' : Reaction} (hr : Reaction.Alike m r r') (x : Margin) :
    m.Twins x (x + r.margin r') Eq (Pending.register c r).run (Pending.register c r').run := by
  rw [register_eq, register_eq]
  refine twins_get (fun h h' hh => ?_) (Margin.le_add_of hr.extent_le x _) fun h => ?_
  · obtain ⟨hpendings, trace⟩ := hh
    simp only [hpendings.length_eq]
  · exact (twins_enlist c hr x).bind (fun _ _ _ => unaffected_enroll c _ _) (le_refl _)

/-- A step with a handler that may have the mishap takes of the margin what the handler takes. -/
theorem twins_step (hrun : m.Reacts depth run run') {s s' : Step} (hs : Step.Alike m s s')
    (hx : (x + s.margin s').1 ≤ depth) :
    m.Twins x (x + s.margin s') Eq (s.perform run).run (s'.perform run').run := by
  have hplain : ∀ {w w' : Session Answer}, m.Paired depth w.run w'.run →
      m.Twins x (x + .of 0 0 0) Eq w.run w'.run := by
    intro w w' hw
    exact (hw x (Nat.le_trans (Nat.le_add_right _ _) hx)).mono
      (Margin.le_add_of (Nat.le_refl 0) x 0)
  cases hs with
  | message s => exact hplain (unaffected_messageStep s).paired
  | iterator s => exact hplain (unaffected_iteratorStep s).paired
  | call s => exact hplain (paired_callStep hrun s)
  | connection s => exact hplain (unaffected_connectionStep s).paired
  | thing s => exact hplain (unaffected_thingStep s).paired
  | @expect name r r' reply accepts hr =>
      have hle := Margin.le_add_of hr.extent_le x r.handlers
      refine Session.twins_bind (Session.unaffected_lift
        (unaffected_prepareCall name (.standIn accepts) reply) x) (fun c => ?_) hle
      refine Session.twins_bind (twins_register c hr x) (fun p => ?_) (le_refl _)
      exact Session.unaffected_bind (Session.unaffected_lift (unaffected_assign name (.pending p)))
        (fun _ => Session.unaffected_pure _) _
  | @request name bus message r r' reply timeout hr =>
      have hle := Margin.le_add_of hr.extent_le x r.handlers
      refine Session.twins_bind (Session.unaffected_busNamed bus x) (fun b => ?_) hle
      refine Session.twins_bind (Session.unaffected_lift (unaffected_createReply name reply) x)
        (fun _ => ?_) hle
      refine Session.twins_bind (Session.unaffected_lift (unaffected_createCall _) x)
        (fun c => ?_) hle
      refine Session.twins_bind (Session.unaffected_subject message x) (fun i => ?_) hle
      refine Session.twins_bind (Session.unaffected_milliseconds timeout x) (fun ms => ?_) hle
      refine Session.twins_bind (unaffected_sendForReply b i c ms x) (fun sent => ?_) hle
      cases sent with
      | none => exact (Session.unaffected_pure _ x).mono hle
      | some c =>
          refine Session.twins_bind (twins_register c hr x) (fun p => ?_) (le_refl _)
          exact Session.unaffected_bind (Session.unaffected_lift (unaffected_noteLine name c))
            (fun _ => Session.unaffected_bind (Session.unaffected_lift
              (unaffected_assign name (.pending p))) fun _ => Session.unaffected_pure _) _

/-! ## Handlers -/

theorem unaffected_raiseReported (w : WrapperId) : m.Unaffected (Session.raiseReported w).run := by
  refine Session.unaffected_get (fun _ _ _ => rfl) fun h => ?_
  cases h.messageOf? (.wrapper w) with
  | none => exact Session.unaffected_pure _
  | some i =>
      exact Session.unaffected_bind (Session.unaffected_messageAt i) fun _ =>
        Session.unaffected_get (fun _ _ _ => rfl) fun _ => Session.unaffected_attempt _

section

variable {perform perform' : Step → Session Answer}

/-- A handler that has run its actions raises the exception, unless it has raised one before. -/
theorem runActions_append_raise (perform : Step → Session Answer) (w : WrapperId) (n : ℕ)
    (actions : List Action) (className text : String) :
    runActions perform w n (actions ++ [.raise className text]) =
      (fun raised => some (raised.getD (raisedClass className text))) <$>
        runActions perform w n actions := by
  induction actions with
  | nil => rfl
  | cons a rest ih =>
      cases a with
      | raise c t => rfl
      | raiseIfError =>
          simp only [List.cons_append, runActions, map_bind]
          refine bind_congr fun e => ?_
          cases e with
          | ok u => exact ih
          | error f => rfl
      | keep name => simp only [List.cons_append, runActions, map_bind, ih]
      | step s => simp only [List.cons_append, runActions, map_bind, ih]

/-- Actions that differ by a mishap, but do not end in it. -/
theorem twins_runActions (hperform : ∀ {s s' : Step}, Step.Alike m s s' → ∀ {x : Margin},
      (x + s.margin s').1 ≤ depth →
      m.Twins x (x + s.margin s') Eq (perform s).run (perform' s').run)
    (w : WrapperId) (n : ℕ) {actions actions' : List Action}
    (h : Action.AllAlike m actions actions')
    (hx : (x + Action.listMargin actions actions').1 ≤ depth) :
    m.Twins x (x + Action.listMargin actions actions') Eq (runActions perform w n actions)
      (runActions perform' w n actions') := by
  induction actions generalizing actions' x with
  | nil =>
      cases h with
      | nil => exact (twins_pure rfl x).mono (Margin.le_add_of (Nat.le_refl _) x _)
  | cons a rest ih =>
      cases h with
      | @cons _ a' _ rest' ha hrest =>
          -- of the margin, the first action takes `y`, and the others take the rest
          let y := x + .of a.handlers a.extent a'.extent
          have hxy : x ≤ y := Margin.le_add_of ha.extent_le x _
          have hsum : y + Action.listMargin rest rest' =
              x + Action.listMargin (a :: rest) (a' :: rest') := by
            simp only [Action.listMargin, Action.listHandlers, Action.listExtent, Margin.of_add,
              add_assoc, y]
          rw [← hsum] at hx ⊢
          have hle : y ≤ y + Action.listMargin rest rest' :=
            Margin.le_add_of hrest.listExtent_le y _
          have hnext := ih hrest hx
          cases ha with
          | raise c t => exact (twins_pure rfl x).mono (le_trans hxy hle)
          | raiseIfError =>
              have hraise : m.Unaffected (Session.raiseReported w).result :=
                Session.unaffected_result (unaffected_raiseReported w)
              refine ((hraise x).mono hxy).bind (fun e _ he => ?_) hle
              obtain rfl := he
              cases e with
              | ok u => exact hnext
              | error f => exact (twins_pure rfl y).mono hle
          | keep name =>
              have hkeep : m.Unaffected (assign name (.wrapper w)) := unaffected_assign name _
              exact ((hkeep x).mono hxy).bind (fun _ _ _ => hnext) hle
          | @step s s' hs =>
              have hstep : x + s.margin s' = y := by
                simp only [y, Step.margin, Action.handlers, Action.extent, Margin.of]
                refine Prod.ext rfl ?_
                simp only [Prod.snd_add]
                omega
              have hperformed := hperform hs (x := x) (hstep ▸ Nat.le_trans hle.1 hx)
              rw [hstep] at hperformed
              refine hperformed.bind (fun e _ he => ?_) hle
              obtain rfl := he
              have hnoted : m.Unaffected (noteAction n e) := unaffected_modify fun _ _ _ => rfl
              exact hnoted.twins (fun _ => hnext) hle

end

theorem reacts_reactWithin (depth : ℕ) :
    m.Reacts depth (reactWithin depth) (reactWithin depth) := by
  induction depth with
  | zero => exact ⟨fun _ _ _ _ hx => absurd hx (Nat.not_lt_zero _),
      fun _ _ _ _ hx => absurd hx (Nat.not_lt_zero _)⟩
  | succ depth ih =>
      have hactions : ∀ {actions actions' : List Action}, Action.AllAlike m actions actions' →
          ∀ (w : WrapperId) (n : ℕ) {x : Margin},
          (x + Action.listMargin actions actions').1 < depth + 1 →
          m.Twins x (x + Action.listMargin actions actions') Eq
            (reactWithin (depth + 1) w n actions) (reactWithin (depth + 1) w n actions') :=
        fun h w n x hx => twins_runActions (fun hs _ hx => twins_step ih hs hx) w n h
          (Nat.le_of_lt_succ hx)
      refine ⟨hactions, fun {actions actions'} h w n x hx => ?_⟩
      have hraise : reactWithin (depth + 1) w n (actions' ++ [.raise m.className m.text]) =
          (fun raised => some (raised.getD (raisedClass m.className m.text))) <$>
            reactWithin (depth + 1) w n actions' :=
        runActions_append_raise _ w n actions' m.className m.text
      rw [hraise, ← id_map (reactWithin (depth + 1) w n actions)]
      exact (hactions h w n hx).map fun raised raised' heq => by rw [id, ← heq]

end DBusHost
