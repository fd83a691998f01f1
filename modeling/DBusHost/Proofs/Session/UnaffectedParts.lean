import DBusHost.Proofs.Session.Calls
import DBusHost.Proofs.Session.Unaffected

/-!
# Parts of steps that a mishap does not matter to

What steps are made of looks neither at the handlers in slots nor at what has happened so far,
except that closing or cancelling a pending call drops its handler, whatever that would do.
-/

namespace DBusHost

open Host Mishap

variable {m : Mishap}

/-! ## Parts that change nothing -/

namespace Session

theorem unaffected_ofExcept {α : Type} (e : Except Fault α) : m.Unaffected (ofExcept e).run :=
  unaffected_of_run fun _ _ _ => rfl

theorem unaffected_build (r : Recipe) : m.Unaffected (build r).run :=
  unaffected_of_run fun _ _ _ => rfl

theorem unaffected_attempt {α : Type} (e : Attempt α) : m.Unaffected (attempt e).run :=
  unaffected_of_run fun _ _ _ => rfl

theorem unaffected_thing (name : String) : m.Unaffected (thing name).run := by
  refine unaffected_get (fun _ _ _ => rfl) fun h => ?_
  cases h.names.get? name with
  | none => exact unaffected_throw _
  | some t => exact unaffected_pure t

theorem unaffected_messageAt (i : MessageId) : m.Unaffected (messageAt i).run := by
  refine unaffected_get (fun _ _ _ => rfl) fun h => ?_
  cases h.message? i with
  | none => exact unaffected_throw _
  | some message => exact unaffected_pure message

theorem unaffected_labelled (name : String) : m.Unaffected (labelled name).run := by
  refine unaffected_get (fun _ _ _ => rfl) fun h => ?_
  cases h.labels.get? name with
  | none => exact unaffected_throw _
  | some r => exact unaffected_pure r

theorem unaffected_lineNamed (name : String) : m.Unaffected (lineNamed name).run := by
  refine unaffected_get (fun _ _ _ => rfl) fun h => ?_
  cases h.lines.get? name with
  | none => exact unaffected_throw _
  | some c => exact unaffected_pure c

theorem unaffected_messageNamed (name : String) : m.Unaffected (messageNamed name).run := by
  refine unaffected_get (fun _ _ _ => rfl) fun h =>
    unaffected_bind (unaffected_thing name) fun t => ?_
  split
  · exact unaffected_pure _
  · exact unaffected_throw _

theorem unaffected_busNamed (name : String) : m.Unaffected (busNamed name).run := by
  refine unaffected_get (fun _ _ _ => rfl) fun h =>
    unaffected_bind (unaffected_thing name) fun t => ?_
  split
  · exact unaffected_pure _
  · exact unaffected_throw _

theorem unaffected_handleNamed (name : String) : m.Unaffected (handleNamed name).run := by
  refine unaffected_bind (unaffected_thing name) fun t => ?_
  split
  · exact unaffected_pure _
  · exact unaffected_throw _

theorem unaffected_attachedCall (c : CallId) : m.Unaffected (attachedCall c).run := by
  refine unaffected_get (fun _ _ _ => rfl) fun h => ?_
  split
  · exact unaffected_pure _
  · exact unaffected_throw _

theorem unaffected_iteratorNamed (name : String) : m.Unaffected (iteratorNamed name).run := by
  refine unaffected_get (fun _ _ _ => rfl) fun h =>
    unaffected_bind (unaffected_thing name) fun t => ?_
  cases t with
  | reader i =>
      simp only
      split
      · exact unaffected_pure _
      · exact unaffected_throw _
  | writer i =>
      simp only
      split
      · exact unaffected_pure _
      · exact unaffected_throw _
  | _ => exact unaffected_throw _

theorem unaffected_readerNamed (name : String) : m.Unaffected (readerNamed name).run := by
  refine unaffected_bind (unaffected_iteratorNamed name) fun t => ?_
  cases t with
  | reading i r => exact unaffected_pure _
  | writing i w => exact unaffected_throw _

theorem unaffected_writerNamed (name : String) : m.Unaffected (writerNamed name).run := by
  refine unaffected_bind (unaffected_iteratorNamed name) fun t => ?_
  cases t with
  | reading i r => exact unaffected_throw _
  | writing i w => exact unaffected_pure _

theorem unaffected_loopedOver (name : String) : m.Unaffected (loopedOver name).run := by
  refine unaffected_bind (unaffected_thing name) fun t => ?_
  cases t with
  | reader i | writer i => exact unaffected_readerNamed name
  | _ => exact unaffected_throw _

theorem unaffected_milliseconds (timeout : Option Recipe) :
    m.Unaffected (milliseconds timeout).run := by
  cases timeout with
  | none => exact unaffected_pure _
  | some timeout =>
      exact unaffected_bind (unaffected_build timeout) fun x => unaffected_ofExcept _

theorem unaffected_lookAtMethod (methods : List String) (property : String) :
    m.Unaffected (lookAtMethod methods property).run := by
  unfold lookAtMethod
  split
  · exact unaffected_pure _
  · exact unaffected_throw _

theorem unaffected_subject (s : Subject) : m.Unaffected s.message.run := by
  cases s with
  | named name =>
      refine unaffected_get (fun _ _ _ => rfl) fun h =>
        unaffected_bind (unaffected_thing name) fun t => ?_
      split
      · exact unaffected_pure _
      · exact unaffected_throw _
  | foreign => exact unaffected_throw _

theorem unaffected_openCall (p : PendingId) : m.Unaffected (Pending.openCall p).run := by
  refine unaffected_look (fun h h' hh => ?_) fun h => ?_
  · simp only [(hh.pending p).call, (hh.pending p).holding]
  · dsimp only
    split
    · exact unaffected_pure _
    · exact unaffected_throw _

theorem unaffected_completed (p : PendingId) : m.Unaffected (Pending.completed p).run :=
  unaffected_bind (unaffected_openCall p) fun _ =>
    unaffected_get (fun _ _ _ => rfl) fun _ => unaffected_pure _

theorem unaffected_draft (w : WriteIterator) (misuse : Misuse) :
    m.Unaffected (w.draft misuse).run := by
  unfold WriteIterator.draft
  split
  · exact unaffected_pure _
  · exact unaffected_throw _

theorem unaffected_onlyChar (s : String) : m.Unaffected (onlyChar s).run := by
  unfold onlyChar
  split
  · exact unaffected_pure _
  · exact unaffected_throw _

/-! ## Single changes -/

theorem unaffected_call (r : Routine) : m.Unaffected (call r).run := by
  refine unaffected_bind (unaffected_lift (unaffected_of_run fun _ _ _ => rfl)) fun ok => ?_
  cases ok with
  | false => exact unaffected_throw _
  | true => exact unaffected_pure _

theorem unaffected_writeOn {α : Type} (i : MessageId) (w : Writing α) :
    m.Unaffected (writeOn i w).run := by
  refine unaffected_bind (unaffected_messageAt i) fun message x => ⟨le_refl x, ?_⟩
  rintro h h' ⟨hpendings, trace⟩ hx
  have hpens : m.Echoes
      ((w.run.run ⟨h.failures, message.sheet, []⟩).2.calls.map Event.pen)
      ((w.run.run ⟨h.failures, message.sheet, []⟩).2.calls.map Event.pen) :=
    echoes_self (List.forall_mem_map.mpr fun _ _ => trivial)
  exact ⟨rfl, alike_of_eq hpendings rfl, hx.append rfl rfl rfl rfl (Nat.le_refl _) (le_refl _),
    _, _, rfl, rfl, hpens⟩

end Session

namespace Host

theorem unaffected_modifyMessage (i : MessageId) (f : Message → Message) :
    m.Unaffected (modifyMessage i f) := unaffected_modify fun _ _ _ => rfl

theorem unaffected_modifyBus (b : String) (f : Bus → Bus) : m.Unaffected (modifyBus b f) :=
  unaffected_modify fun _ _ _ => rfl

theorem unaffected_relabel (name : String) (r : Resource) : m.Unaffected (relabel name r) :=
  unaffected_modify fun _ _ _ => rfl

theorem unaffected_label (name : String) (r : Resource) : m.Unaffected (label name r) :=
  unaffected_modify fun _ _ _ => rfl

theorem unaffected_modifyCall (c : CallId) (f : Call → Call) : m.Unaffected (modifyCall c f) :=
  unaffected_modify fun _ _ _ => rfl

theorem unaffected_closeBus (b : String) : m.Unaffected (closeBus b) :=
  (unaffected_record (e := .closed b) trivial).bind fun _ => unaffected_modifyBus b _

/-! ## References -/

theorem unaffected_countBy (r : Resource) (n : Int) : m.Unaffected (countBy r n) :=
  unaffected_modify fun _ _ _ => rfl

theorem unaffected_create (r : Resource) : m.Unaffected (create r) :=
  (unaffected_countBy r 1).bind fun _ => unaffected_record trivial

theorem unaffected_share (r : Resource) : m.Unaffected (share r) :=
  (unaffected_countBy r 1).bind fun _ => unaffected_record trivial

theorem unaffected_release (r : Resource) : m.Unaffected (release r) :=
  (unaffected_countBy r (-1)).bind fun _ => unaffected_record trivial

theorem unaffected_adopt (r : Resource) : m.Unaffected (adopt r) := by
  refine (unaffected_record (e := .adopted r) trivial).bind fun _ =>
    unaffected_get (fun _ _ _ => rfl) fun h => ?_
  cases h.wrapperOf? r with
  | some w => exact (unaffected_release r).bind fun _ => unaffected_pure w
  | none =>
      exact unaffected_get (fun _ _ _ => rfl) fun h =>
        (unaffected_modify fun _ _ _ => rfl).bind fun _ => unaffected_pure _

/-- A wrapper that is let go is changed in the host as it is then. -/
theorem letGoWrapper_eq (w : WrapperId) : letGoWrapper w = (do
    let h ← get
    match h.wrappers[w]? with
    | some wrapper =>
      if wrapper.live && !h.refersTo w then
        modify fun h => { h with
          wrappers := h.wrappers.modify w fun wrapper => { wrapper with live := false } }
        release wrapper.resource
    | none => return) := by
  funext h
  unfold letGoWrapper
  simp only [bind, StateT.bind, get, getThe, MonadStateOf.get, StateT.get, pure]
  cases h.wrappers[w]? with
  | none => rfl
  | some wrapper =>
      dsimp only
      split
      · rfl
      · rfl

theorem unaffected_letGoWrapper (w : WrapperId) : m.Unaffected (letGoWrapper w) := by
  rw [letGoWrapper_eq]
  refine unaffected_get (fun _ _ _ => rfl) fun h => ?_
  cases h.wrappers[w]? with
  | none => exact unaffected_pure _
  | some wrapper =>
      dsimp only
      split
      · exact (unaffected_modify fun _ _ _ => rfl).bind fun _ => unaffected_release _
      · exact unaffected_pure _

/-! ## Calls -/

theorem unaffected_succeeds (r : Routine) : m.Unaffected (succeeds r) :=
  unaffected_of_run fun _ _ _ => rfl

theorem unaffected_freeData (c : CallId) (r : Registration) : m.Unaffected (freeData c r) := by
  unfold freeData Callbacks.freeData
  split
  · refine (unaffected_record (e := .freed c r.data) trivial).bind fun _ => ?_
    cases r.data with
    | slot p => exact unaffected_discard_takeSlot p
    | note x => exact unaffected_pure _
  · exact unaffected_pure _

theorem unaffected_exchange (c : CallId) (r : Registration) : m.Unaffected (exchange c r) := by
  refine (unaffected_succeeds .setNotify).bind fun ok => ?_
  split
  · exact (unaffected_record (e := .notifySet c r.notifies) trivial).bind fun _ =>
      unaffected_get (fun _ _ _ => rfl) fun _ => (unaffected_modifyCall c _).bind fun _ =>
      (unaffected_freeData c _).bind fun _ => unaffected_pure _
  · exact unaffected_pure _

theorem unaffected_setNotify (c : CallId) (r : Registration) : m.Unaffected (setNotify c r) := by
  refine unaffected_get (fun _ _ _ => rfl) fun h => ?_
  split
  · refine (unaffected_record (e := .notifySet c r.notifies) trivial).bind fun _ => ?_
    split
    · exact (unaffected_modifyCall c _).bind fun _ => unaffected_pure _
    · exact unaffected_pure _
  · refine (unaffected_exchange c r).bind fun ok => ?_
    split
    · exact (unaffected_modifyCall c _).bind fun _ => unaffected_pure _
    · exact unaffected_pure _

theorem unaffected_cancelCall (c : CallId) : m.Unaffected (cancelCall c) := by
  refine (unaffected_record (e := .cancelled c) trivial).bind fun _ =>
    unaffected_get (fun _ _ _ => rfl) fun h => ?_
  split
  · exact unaffected_pure _
  · exact unaffected_modifyCall c _

theorem unaffected_stealReply (c : CallId) : m.Unaffected (stealReply c) := by
  refine unaffected_get (fun _ _ _ => rfl) fun h => ?_
  dsimp only
  split
  · exact (unaffected_record (e := .stolen c _) trivial).bind fun _ =>
      (unaffected_modifyCall c _).bind fun _ => unaffected_pure _
  · exact (unaffected_modifyCall c _).bind fun _ => unaffected_pure _

theorem unaffected_unreference (c : CallId) : m.Unaffected (unreference c) := by
  refine unaffected_get (fun _ _ _ => rfl) fun h => ?_
  dsimp only
  split
  · exact (unaffected_record (e := .unreferenced c) trivial).bind fun _ => unaffected_freeData c _
  · split
    · split
      · exact (unaffected_exchange c .none).discard.bind fun _ =>
          (unaffected_record (e := .unreferenced c) trivial).bind fun _ => unaffected_modifyCall c _
      · exact (unaffected_record (e := .unreferenced c) trivial).bind fun _ =>
          unaffected_modifyCall c _
    · exact unaffected_pure _

theorem unaffected_createCall (call : Call) : m.Unaffected (createCall call) :=
  unaffected_get (fun _ _ _ => rfl) fun _ =>
    (unaffected_modify fun _ _ _ => rfl).bind fun _ => unaffected_pure _

theorem unaffected_noteLine (name : String) (c : CallId) : m.Unaffected (noteLine name c) :=
  unaffected_modify fun _ _ _ => rfl

/-! ## Pending calls -/

theorem unaffected_cancel (p : PendingId) : m.Unaffected (Pending.cancel p) := by
  refine unaffected_look (fun h h' hh => ?_) fun h => ?_
  · simp only [(hh.pending p).call, (hh.pending p).holding]
  · dsimp only
    split
    · exact (unaffected_cancelCall _).bind fun _ => unaffected_discard_takeSlot p
    · exact unaffected_discard_takeSlot p

theorem unaffected_hold (holding : Bool) (p : PendingId) :
    m.Unaffected (modifyPending p fun pending => { pending with holding }) := by
  refine unaffected_modifyPending ?_ ?_ p
  · exact fun _ _ hxy => ⟨hxy.call, rfl, hxy.slot⟩
  · exact fun _ => rfl

theorem unaffected_close (p : PendingId) : m.Unaffected (Pending.close p) := by
  refine unaffected_look (fun h h' hh => ?_) fun h => ?_
  · simp only [(hh.pending p).call, (hh.pending p).holding]
  · refine (unaffected_hold false p).bind fun _ => ?_
    dsimp only
    split
    · exact (unaffected_unreference _).bind fun _ => unaffected_discard_takeSlot p
    · exact unaffected_discard_takeSlot p

theorem unaffected_abandon (c : CallId) (p : PendingId) : m.Unaffected (Host.abandon c p) := by
  have hlogged : m.Unaffected (record (.logged .debug
      "cannot register notify function, abandoning call" none)) := unaffected_record trivial
  exact hlogged.bind fun _ => (unaffected_cancelCall c).bind fun _ =>
    (unaffected_unreference c).bind fun _ => unaffected_discard_takeSlot p

theorem unaffected_enroll (c : CallId) (p : PendingId) : m.Unaffected (enroll c p).run := by
  refine Session.unaffected_bind (Session.unaffected_lift (unaffected_setNotify c _)) fun ok => ?_
  split
  · exact Session.unaffected_bind (Session.unaffected_lift (unaffected_hold true p)) fun _ =>
      Session.unaffected_pure _
  · exact Session.unaffected_bind (Session.unaffected_lift (unaffected_abandon c p)) fun _ =>
      Session.unaffected_throw _

/-! ## Names -/

theorem unaffected_letGo (t : Thing) : m.Unaffected (letGo t) := by
  cases t with
  | wrapper w => exact unaffected_letGoWrapper w
  | pending p =>
      refine unaffected_get (fun _ _ _ => rfl) fun h => ?_
      split
      · exact unaffected_pure _
      · exact unaffected_close p
  | handle c => exact unaffected_pure _
  | reader i => exact unaffected_pure _
  | writer i => exact unaffected_pure _

theorem unaffected_named (name : String) (t : Thing) (old : Option Thing) :
    m.Unaffected (named name t old) := by
  refine unaffected_get (fun _ _ _ => rfl) fun h => ?_
  cases h.messageOf? t with
  | none =>
      cases old with
      | none => exact unaffected_pure _
      | some old => exact unaffected_letGo old
  | some i =>
      refine (unaffected_label name (.message i)).bind fun _ => ?_
      cases old with
      | none => exact unaffected_pure _
      | some old => exact unaffected_letGo old

theorem unaffected_assign (name : String) (t : Thing) : m.Unaffected (assign name t) :=
  unaffected_get (fun _ _ _ => rfl) fun h =>
    (unaffected_modify fun _ _ _ => rfl).bind fun _ => unaffected_named name t (h.names.get? name)

theorem unaffected_adoptAs (name : String) (r : Resource) : m.Unaffected (adoptAs name r) :=
  (unaffected_adopt r).bind fun _ => unaffected_get (fun _ _ _ => rfl) fun _ =>
    (unaffected_assign name _).bind fun _ => unaffected_pure _

/-! ## Messages -/

theorem unaffected_createMessage (message : Message) : m.Unaffected (createMessage message) :=
  unaffected_get (fun _ _ _ => rfl) fun _ => (unaffected_modify fun _ _ _ => rfl).bind fun _ =>
    (unaffected_create _).bind fun _ => unaffected_pure _

theorem unaffected_createLabelled (name : String) (message : Message) :
    m.Unaffected (createLabelled name message) :=
  (unaffected_createMessage message).bind fun i =>
    (unaffected_relabel name (.message i)).bind fun _ => unaffected_pure _

theorem unaffected_createReply (name : String) (reply : Option Message) :
    m.Unaffected (createReply name reply) := by
  cases reply with
  | none => exact unaffected_pure _
  | some message => exact (unaffected_createLabelled (name ++ ".reply") message).map _

theorem unaffected_prepareCall (name : String) (kind : CallKind) (reply : Option Message) :
    m.Unaffected (prepareCall name kind reply) :=
  (unaffected_createReply name reply).bind fun _ => (unaffected_createCall _).bind fun c =>
    (unaffected_noteLine name c).bind fun _ => unaffected_pure _

end Host

end DBusHost
