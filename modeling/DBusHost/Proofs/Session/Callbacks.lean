import DBusHost.Session.Handle
import DBusHost.Proofs.Session.Moves

/-!
# Operations on a call

What an operation on a call does depends on the kind of the call, on whether the handle has given
it up and on whether the native library refuses.  Once that is known, the operation is a few single
changes with a function that is called among them.

The functions may do anything.  Those of a session are one instance.

A preorder on states that holds across the single changes and across the functions holds across the
operations.  `Callbacks.Registers` names what has to be looked at.
-/

namespace DBusHost

variable {c : CallId} {h : Host}

namespace Host

theorem call_modifyCall (h : Host) (c d : CallId) (f : Call → Call) :
    ((modifyCall c f).run h).2.call d =
      if c = d ∧ d < h.calls.length then f (h.call d) else h.call d := by
  change ((h.calls.modify c f)[d]?).getD default = _
  by_cases hd : d < h.calls.length
  · by_cases hcd : c = d <;> simp [call, hd, hcd]
  · simp [call, hd]

theorem call_modifyCall_self (hc : c < h.calls.length) (f : Call → Call) :
    ((modifyCall c f).run h).2.call c = f (h.call c) := by
  rw [call_modifyCall, if_pos ⟨rfl, hc⟩]

/-- The call is marked as completed. -/
def mark (c : CallId) : StateM Host Unit := do
  record (.completed c)
  modifyCall c fun call => { call with completed := true }

theorem call_mark (c : CallId) (h : Host) (d : CallId) : ((mark c).run h).2.call d =
    if c = d ∧ d < h.calls.length then { h.call d with completed := true } else h.call d :=
  call_modifyCall h c d _

/-- The native library has a new registration, and the handle still has the old one. -/
def swap (c : CallId) (r : Registration) : StateM Host Unit := do
  discard (succeeds .setNotify)
  record (.notifySet c r.notifies)
  modifyCall c fun call => { call with registration := r }

theorem call_swap (h : Host) (hc : c < h.calls.length) (r : Registration) :
    ((swap c r).run h).2.call c = { h.call c with registration := r } :=
  call_modifyCall_self (h := ((do
    discard (succeeds .setNotify)
    record (.notifySet c r.notifies) : StateM Host Unit).run h).2) hc _

theorem trace_swap (h : Host) (c : CallId) (r : Registration) :
    ((swap c r).run h).2.trace = h.trace ++ [.notifySet c r.notifies] := rfl

theorem length_swap (h : Host) (c : CallId) (r : Registration) :
    ((swap c r).run h).2.calls.length = h.calls.length := List.length_modify ..

theorem call_giveUp (h : Host) (hc : c < h.calls.length) :
    ((giveUp c).run h).2.call c = { h.call c with attached := false } :=
  call_modifyCall_self (h := ((record (.unreferenced c)).run h).2) hc _

end Host

namespace Callbacks

open Host

variable (k : Callbacks)

/-! ## Calling functions -/

theorem run_freeData (c : CallId) (r : Registration) (h : Host) :
    ((k.freeData c r).run h).2 = if r.frees = true then
      ((k.onFree r.data).run ((record (.freed c r.data)).run h).2).2 else h := by
  unfold freeData
  split <;> rfl

theorem freeData_of_not_frees {r : Registration} (hr : r.frees = false) :
    ((k.freeData c r).run h).2 = h := by
  rw [run_freeData, hr]
  rfl

theorem run_notify (c : CallId) (r : Registration) (h : Host) :
    ((k.notify c r).run h).2 = if r.notifies = true then
      ((k.onReply c r.data).run ((record (.notified c r.data)).run h).2).2 else h := by
  unfold notify
  split <;> rfl

/-! ## Registering -/

section

variable (r : Registration)

theorem run_exchange (c : CallId) (h : Host) : (k.exchange c r).run h =
    if ((succeeds .setNotify).run h).1 = true then
      (true, ((k.freeData c (h.call c).registration).run ((swap c r).run h).2).2)
    else (false, ((succeeds .setNotify).run h).2) := by
  have hrun : (succeeds .setNotify).run h =
      (((succeeds .setNotify).run h).1, ((succeeds .setNotify).run h).2) := rfl
  rw [exchange, StateT.run_bind, hrun]
  cases ((succeeds .setNotify).run h).1 <;> rfl

theorem setNotify_standIn {accepts : Bool} (hk : (h.call c).kind = .standIn accepts) :
    (k.setNotify c r).run h = (do
      record (.notifySet c r.notifies)
      if accepts then modifyCall c fun call => { call with registration := r }
      return accepts).run h := by
  simp only [setNotify, StateT.run_bind, StateT.run_get, pure_bind, hk]

theorem setNotify_native (hk : (h.call c).kind = .native) : (k.setNotify c r).run h = (do
    let ok ← k.exchange c r
    if ok then modifyCall c fun call => { call with kept := r }
    return ok).run h := by
  simp only [setNotify, StateT.run_bind, StateT.run_get, pure_bind, hk]

/-- A registration that fails leaves everything as it is, apart from what is still to fail. -/
theorem setNotify_of_not_succeeds (hk : (h.call c).kind = .native)
    (hno : ((succeeds .setNotify).run h).1 = false) :
    (k.setNotify c r).run h = (false, ((succeeds .setNotify).run h).2) := by
  rw [k.setNotify_native r hk, StateT.run_bind, run_exchange, hno]
  rfl

theorem setNotify_of_succeeds (hk : (h.call c).kind = .native)
    (hok : ((succeeds .setNotify).run h).1 = true) :
    (k.setNotify c r).run h = (true, ((modifyCall c fun call => { call with kept := r }).run
      ((k.freeData c (h.call c).registration).run ((swap c r).run h).2).2).2) := by
  rw [k.setNotify_native r hk, StateT.run_bind, run_exchange, if_pos hok]
  rfl

/-- Whether a registration succeeds is up to the library. -/
theorem setNotify_fst (hk : (h.call c).kind = .native) :
    ((k.setNotify c r).run h).1 = ((succeeds .setNotify).run h).1 := by
  cases hok : ((succeeds .setNotify).run h).1 with
  | false => rw [k.setNotify_of_not_succeeds r hk hok]
  | true => rw [k.setNotify_of_succeeds r hk hok]

end

/-! ## Giving a call up -/

theorem unreference_standIn {accepts : Bool} (hk : (h.call c).kind = .standIn accepts) :
    (k.unreference c).run h = (do
      record (.unreferenced c)
      k.freeData c (h.call c).registration).run h := by
  simp only [unreference, StateT.run_bind, StateT.run_get, pure_bind, hk]

theorem unreference_attached (hk : (h.call c).kind = .native)
    (hattached : (h.call c).attached = true) : (k.unreference c).run h = (do
      if (h.call c).kept.notifies || (h.call c).kept.frees then discard (k.exchange c .none)
      giveUp c).run h := by
  simp only [unreference, StateT.run_bind, StateT.run_get, pure_bind, hk, hattached, if_true]

theorem unreference_detached (hk : (h.call c).kind = .native)
    (hattached : (h.call c).attached = false) : (k.unreference c).run h = ((), h) := by
  simp only [unreference, StateT.run_bind, StateT.run_get, pure_bind, hk, hattached]
  rfl

/-! ## Replies -/

theorem complete_of_not_isReady (hready : (h.call c).isReady = false) :
    (k.complete c).run h = (false, h) := by
  simp only [complete, StateT.run_bind, StateT.run_get, pure_bind, hready]
  rfl

theorem complete_of_isReady (hready : (h.call c).isReady = true) : (k.complete c).run h =
    (true, ((k.notify c (h.call c).registration).run ((mark c).run h).2).2) := by
  simp only [complete, StateT.run_bind, StateT.run_get, pure_bind, hready]
  rfl

/-! ## What holds across the operations -/

/-- The relation holds across what is done when functions are registered with the call. -/
structure Registers (k : Callbacks) (c : CallId) (R : Host → Host → Prop) : Prop where
  onFree (x : UserData) : Moves R (k.onFree x)
  freed (x : UserData) : Moves R (record (.freed c x))
  succeeds : Moves R (Host.succeeds .setNotify)
  notifySet (notifies : Bool) : Moves R (record (.notifySet c notifies))
  registration (r : Registration) :
    Moves R (modifyCall c fun call => { call with registration := r })
  kept (r : Registration) : Moves R (modifyCall c fun call => { call with kept := r })

variable {k} {R : Host → Host → Prop} [IsPreorder Host R]

theorem moves_freeData (hfree : ∀ x, Moves R (k.onFree x))
    (hfreed : ∀ x, Moves R (record (.freed c x))) (r : Registration) :
    Moves R (k.freeData c r) := by
  unfold freeData
  split
  · exact (hfreed r.data).bind fun _ => hfree r.data
  · exact moves_pure _

namespace Registers

variable (hk : k.Registers c R)

include hk

theorem moves_exchange (r : Registration) : Moves R (k.exchange c r) := by
  refine hk.succeeds.bind fun ok => ?_
  split
  · exact (hk.notifySet r.notifies).bind fun _ => Moves.get fun _ =>
      (hk.registration r).bind fun _ =>
      (moves_freeData hk.onFree hk.freed _).bind fun _ => moves_pure _
  · exact moves_pure _

theorem moves_setNotify (r : Registration) : Moves R (k.setNotify c r) := by
  refine Moves.get fun h => ?_
  split
  · refine (hk.notifySet r.notifies).bind fun _ => ?_
    split
    · exact (hk.registration r).bind fun _ => moves_pure _
    · exact moves_pure _
  · refine (hk.moves_exchange r).bind fun ok => ?_
    split
    · exact (hk.kept r).bind fun _ => moves_pure _
    · exact moves_pure _

theorem moves_unreference (hgone : Moves R (record (.unreferenced c)))
    (hdetach : Moves R (modifyCall c fun call => { call with attached := false })) :
    Moves R (k.unreference c) := by
  have hlast : Moves R (giveUp c) := hgone.bind fun _ => hdetach
  refine Moves.get fun h => ?_
  dsimp only
  split
  · exact hgone.bind fun _ => moves_freeData hk.onFree hk.freed _
  · split
    · split
      · exact (hk.moves_exchange .none).discard.bind fun _ => hlast
      · exact hlast
    · exact moves_pure _

end Registers

end Callbacks

namespace Host

variable {R : Host → Host → Prop} [IsPreorder Host R]

theorem moves_dropData (htake : ∀ p, Moves R (takeSlot p)) (x : UserData) :
    Moves R (dropData x) := by
  cases x with
  | slot p => exact (htake p).discard
  | note x => exact moves_pure _

theorem moves_cancelCall_of (hcancelled : Moves R (record (.cancelled c)))
    (hmark : Moves R (modifyCall c fun call => { call with cancelled := true })) :
    Moves R (cancelCall c) := by
  refine hcancelled.bind fun _ => Moves.get fun h => ?_
  split
  · exact moves_pure _
  · exact hmark

theorem moves_stealReply_of (hstolen : ∀ m, Moves R (record (.stolen c m)))
    (htake : Moves R (modifyCall c fun call => { call with reply := none })) :
    Moves R (stealReply c) := by
  refine Moves.get fun h => ?_
  dsimp only
  split
  · exact (hstolen _).bind fun _ => htake.bind fun _ => moves_pure _
  · exact htake.bind fun _ => moves_pure _

end Host

end DBusHost
