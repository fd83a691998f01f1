import DBusHost.Session.Delivery
import DBusHost.Proofs.Session.Callbacks
import DBusHost.Proofs.Session.Moves

/-!
# What happens in one go

A run of a session is a sequence of acts, and an act is what happens in one go, before a
handler or the next step of the session can do anything.  A reply that comes in is an act up
to the start of the handler; whatever the handler does consists of acts again, and leaving
the notify function afterwards is another one.

The acts may follow each other in any order, so what holds in every state that acts can
lead to holds whatever the handlers do.  An act is the computation of the session itself,
except that `Calm` leaves open what happens to messages, buses, iterators and labels, which
no pending call looks at.
-/

namespace DBusHost

/-- The event has nothing to do with calls, with references or with the host lock. -/
def Event.IsCalm : Event → Prop
  | .pen _ | .blocked _ | .finished .. | .busRequested .. | .sent _ | .sentForReply ..
  | .sentAndAwaited .. | .dispatched .. | .closed _ | .flushed _ | .logged .. | .warned _ => True
  | _ => False

/-- What is appended in two goes is of one kind if it is in each of them. -/
theorem Event.appended_trans {E : Event → Prop} {xs ys zs : List Event}
    (hxy : ∃ es, ys = xs ++ es ∧ ∀ e ∈ es, E e) (hyz : ∃ es, zs = ys ++ es ∧ ∀ e ∈ es, E e) :
    ∃ es, zs = xs ++ es ∧ ∀ e ∈ es, E e := by
  obtain ⟨es, hes, hall⟩ := hxy
  obtain ⟨fs, hfs, hall'⟩ := hyz
  refine ⟨es ++ fs, by rw [hfs, hes, List.append_assoc], ?_⟩
  intro e he
  rcases List.mem_append.mp he with he | he
  · exact hall e he
  · exact hall' e he

namespace Host

/-- Nothing has changed that has to do with calls, with references, with names or with the
host lock, except that calls may have been noted. -/
structure Calm (h h' : Host) : Prop where
  validator : h'.validator = h.validator
  references : h'.references = h.references
  wrappers : h'.wrappers = h.wrappers
  calls : h'.calls = h.calls
  pendings : h'.pendings = h.pendings
  names : h'.names = h.names
  lines : ∀ e ∈ h'.lines, e ∈ h.lines ∨ e.2 < h.calls.length
  lockDepth : h'.lockDepth = h.lockDepth
  frames : h'.frames = h.frames
  waiting : h'.waiting = h.waiting
  trace : ∃ es, h'.trace = h.trace ++ es ∧ ∀ e ∈ es, e.IsCalm

instance : IsPreorder Host Calm where
  refl h := ⟨rfl, rfl, rfl, rfl, rfl, rfl, fun _ => .inl, rfl, rfl, rfl, [], by simp⟩
  trans _ _ _ hab hbc := by
    constructor
    case validator => exact hbc.validator.trans hab.validator
    case references => exact hbc.references.trans hab.references
    case wrappers => exact hbc.wrappers.trans hab.wrappers
    case calls => exact hbc.calls.trans hab.calls
    case pendings => exact hbc.pendings.trans hab.pendings
    case names => exact hbc.names.trans hab.names
    case lines =>
      intro e he
      rcases hbc.lines e he with he | he
      · exact hab.lines e he
      · exact .inr (hab.calls ▸ he)
    case lockDepth => exact hbc.lockDepth.trans hab.lockDepth
    case frames => exact hbc.frames.trans hab.frames
    case waiting => exact hbc.waiting.trans hab.waiting
    case trace => exact Event.appended_trans hab.trace hbc.trace

/-- The parts of a state that have to do with calls, with references, with names or with the
host lock. -/
def core (h : Host) :=
  (h.validator, h.references, h.wrappers, h.calls, h.pendings, h.names, h.lines, h.lockDepth,
    h.frames, h.waiting)

theorem calm_of_core {h h' : Host} {es : List Event} (hcore : h'.core = h.core)
    (htrace : h'.trace = h.trace ++ es) (hes : ∀ e ∈ es, e.IsCalm) : Calm h h' := by
  simp only [core, Prod.mk.injEq] at hcore
  obtain ⟨hvalidator, hreferences, hwrappers, hcalls, hpendings, hnames, hlines, hlock, hframes,
    hwaiting⟩ := hcore
  exact ⟨hvalidator, hreferences, hwrappers, hcalls, hpendings, hnames,
    fun e he => .inl (hlines ▸ he), hlock, hframes, hwaiting, es, htrace, hes⟩

theorem calm_record {e : Event} (he : e.IsCalm) : Moves Calm (record e) :=
  fun _ => calm_of_core rfl rfl (by simpa using he)

theorem calm_succeeds (r : Routine) : Moves Calm (succeeds r) :=
  fun _ => calm_of_core rfl (List.append_nil _).symm (by simp)

/-! ## A reply comes in -/

/-- The notify function of pending calls, up to the point where it looks at the reaction. -/
def approach (c : CallId) (p : PendingId) :
    StateM Host (Option (PendingId × WrapperId × MessageId × Reaction)) := do
  lock
  let reaction ← takeSlot p
  match ← stealReply c with
  | none =>
    record (.warned "D-Bus notify function was called for an incomplete pending call")
    record (.logged .warning "notify function called for an incomplete pending call" none)
    unlock
    return none
  | some m =>
    let w ← adopt (.message m)
    modify fun h => { h with frames := ⟨w, reaction.id?⟩ :: h.frames }
    return some (p, w, m, reaction)

/-- Start the handler, if there is one. -/
def greet : Option (PendingId × WrapperId × MessageId × Reaction) →
    StateM Host (Option (PendingId × WrapperId × MessageId × Reaction))
  | some (p, w, m, .handler id actions) => do
    record (.started p id w)
    return some (p, w, m, .handler id actions)
  | o => return o

/-- Call the notify function of a registration, up to the point where a handler is started. -/
def announce (c : CallId) (r : Registration) :
    StateM Host (Option (PendingId × WrapperId × MessageId × Reaction)) := do
  if r.notifies then
    record (.notified c r.data)
    match r.data with
    | .slot p => approach c p >>= greet
    | .note _ => return none
  else return none

/-- The reply of a call comes in, up to the point where a handler is started.  The answer is
what the handler is started with. -/
def opening (c : CallId) :
    StateM Host (Option (PendingId × WrapperId × MessageId × Reaction)) := do
  let call := (← get).call c
  if call.isReady then
    record (.completed c)
    modifyCall c fun call => { call with completed := true }
    announce c call.registration
  else return none

/-- The notify function is left. -/
def leave : StateM Host Unit := do
  unlock
  modify fun h => { h with frames := h.frames.tail }

/-- What is left of a reaction after its handler was started. -/
def resume (run : Reacting) (p : PendingId) (w : WrapperId) (m : MessageId) :
    Reaction → StateM Host Unit
  | .absent => return
  | .inert => record (.logged .error handlerFailure FaultKind.type.name)
  | .handler id actions => runHandler run p w m id actions

/-- What follows on the start of a handler, until the notify function has been left. -/
def closing (run : Reacting) :
    Option (PendingId × WrapperId × MessageId × Reaction) → StateM Host Unit
  | none => return
  | some (p, w, m, reaction) => do
    resume run p w m reaction
    leave
    letGoWrapper w

theorem deliver_eq (run : Reacting) (c : CallId) (p : PendingId) :
    deliver run c p = approach c p >>= greet >>= closing run := by
  simp only [deliver, approach, bind_assoc]
  refine bind_congr fun _ => bind_congr fun reaction => bind_congr fun reply => ?_
  cases reply with
  | none => rfl
  | some m =>
      simp only [bind_assoc]
      refine bind_congr fun w => bind_congr fun _ => ?_
      cases reaction with
      | absent => rfl
      | inert => rfl
      | handler id actions => rfl

theorem notify_eq (run : Reacting) (c : CallId) (r : Registration) :
    (registered run).notify c r = announce c r >>= closing run := by
  unfold Callbacks.notify announce
  split
  · rw [bind_assoc]
    refine bind_congr fun _ => ?_
    cases r.data with
    | slot p => exact deliver_eq run c p
    | note x => rfl
  · rfl

/-- A reply that comes in opens the notify function, and what follows closes it. -/
theorem complete_eq (run : Reacting) (c : CallId) (h : Host) :
    ((complete run c).run h).2 = ((opening c >>= closing run).run h).2 := by
  cases hready : (h.call c).isReady with
  | false =>
      rw [Callbacks.complete_of_not_isReady _ hready]
      simp only [opening, StateT.run_bind, StateT.run_get, pure_bind, hready]
      rfl
  | true =>
      rw [Callbacks.complete_of_isReady _ hready, notify_eq]
      simp only [opening, StateT.run_bind, StateT.run_get, pure_bind, hready]
      rfl

/-! ## Acts -/

/-- The call exists and belongs to no pending call. -/
def IsLoose (h : Host) (c : CallId) : Prop :=
  c < h.calls.length ∧ ∀ p < h.pendings.length, (h.pending p).call ≠ c

/-- The call belongs to no pending call and to no name, and has been neither cancelled nor
given up. -/
structure IsUnclaimed (h : Host) (c : CallId) : Prop where
  loose : h.IsLoose c
  unnamed : ∀ e ∈ h.names, e.2 ≠ .handle c
  unused : ∀ e ∈ h.trace, e ≠ .cancelled c ∧ e ≠ .unreferenced c

end Host

open Host

/-- What can happen in one go. -/
inductive Act (h : Host) : Host → Prop
  | calm {h' : Host} (hcalm : Calm h h') : Act h h'
  | create (r : Resource) : Act h ((create r).run h).2
  | share (r : Resource) : Act h ((share r).run h).2
  | adopt (r : Resource) : Act h ((adopt r).run h).2
  | letGoWrapper (w : WrapperId) : Act h ((letGoWrapper w).run h).2
  | name (s : String) (t : Thing) (ht : ∀ c, t = .handle c → h.IsLoose c) :
      Act h { h with names := h.names.put s t }
  | forget (s : String) : Act h { h with names := h.names.erase s }
  | wait (ps : List PendingId) : Act h { h with waiting := ps }
  | createCall (k : CallKind) (reply : Option MessageId) (attached : Bool) :
      Act h ((createCall (.start k reply attached)).run h).2
  | attach {c : CallId} (hc : h.IsUnclaimed c) :
      Act h ((modifyCall c fun call => { call with attached := true }).run h).2
  | register {c : CallId} (hc : h.IsUnclaimed c) (reaction : Reaction) :
      Act h ((Pending.register c reaction).run.run h).2
  | cancel (p : PendingId) : Act h ((Pending.cancel p).run h).2
  | close (p : PendingId) : Act h ((Pending.close p).run h).2
  /-- The native library is done with the data of a notify function. -/
  | free (c : CallId) : Act h ((freeData c (h.call c).registration).run h).2
  /-- The reply comes in. -/
  | opening {c : CallId} (hc : c < h.calls.length) : Act h ((opening c).run h).2
  | leave : Act h (leave.run h).2
  /-- A handle that belongs to no pending call is used. -/
  | setNotify {c : CallId} (hc : h.IsLoose c) (notifies frees : Bool) (x : Value) :
      Act h ((setNotify c ⟨notifies, frees, .note x⟩).run h).2
  | cancelCall {c : CallId} (hc : h.IsLoose c) : Act h ((cancelCall c).run h).2
  | stealReply {c : CallId} (hc : h.IsLoose c) : Act h ((stealReply c).run h).2
  | unreference {c : CallId} (hc : h.IsLoose c) : Act h ((unreference c).run h).2

end DBusHost
