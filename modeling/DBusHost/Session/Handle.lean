import DBusHost.Session.Ownership

/-!
# Call handles

A call handle is the host's access to one outstanding call.  Through it a notify
function and a free function are registered with some data, which replaces what was
registered before and calls the earlier free function; the call is cancelled; the
reply is taken out; and the call is given up.

Before the handle gives the call up it takes the notify function away, since the
native library may keep the call for longer.

What the functions do with their data is a parameter.  Those of a session empty a slot,
run a handler or just make a note.
-/

namespace DBusHost

namespace Host

/-- Take the reaction out of the slot of a pending call, which is empty from then on. -/
def takeSlot (p : PendingId) : StateM Host Reaction := do
  let reaction := ((← get).pending p).slot
  modifyPending p fun pending => { pending with slot := .absent }
  return reaction

def createCall (call : Call) : StateM Host CallId := do
  let c := (← get).calls.length
  modify fun h => { h with calls := h.calls ++ [call] }
  return c

def cancelCall (c : CallId) : StateM Host Unit := do
  record (.cancelled c)
  match ((← get).call c).kind with
  | .standIn _ => return
  | .native => modifyCall c fun call => { call with cancelled := true }

/-- Take the reply out of a call, if it is there. -/
def stealReply (c : CallId) : StateM Host (Option MessageId) := do
  let reply := ((← get).call c).reply
  if let some m := reply then record (.stolen c m)
  modifyCall c fun call => { call with reply := none }
  return reply

/-- The handle refers to the call no more. -/
def giveUp (c : CallId) : StateM Host Unit := do
  record (.unreferenced c)
  modifyCall c fun call => { call with attached := false }

end Host

/-- What the functions that are registered with calls do with their data. -/
structure Callbacks where
  onReply : CallId → UserData → StateM Host Unit
  onFree : UserData → StateM Host Unit

namespace Callbacks

open Host

/-- Call the free function of a registration, if it has one. -/
def freeData (k : Callbacks) (c : CallId) (r : Registration) : StateM Host Unit := do
  if r.frees then
    record (.freed c r.data)
    k.onFree r.data

/-- Put a registration into a native call; the answer is whether that succeeds. -/
def exchange (k : Callbacks) (c : CallId) (r : Registration) : StateM Host Bool := do
  unless ← succeeds .setNotify do return false
  record (.notifySet c r.notifies)
  let old := ((← get).call c).registration
  modifyCall c fun call => { call with registration := r }
  k.freeData c old
  return true

/-- Register functions with a call; the answer is whether that succeeds. -/
def setNotify (k : Callbacks) (c : CallId) (r : Registration) : StateM Host Bool := do
  match ((← get).call c).kind with
  | .standIn accepts =>
    record (.notifySet c r.notifies)
    if accepts then modifyCall c fun call => { call with registration := r }
    return accepts
  | .native =>
    let ok ← k.exchange c r
    if ok then modifyCall c fun call => { call with kept := r }
    return ok

/-- Give up a call. -/
def unreference (k : Callbacks) (c : CallId) : StateM Host Unit := do
  let call := (← get).call c
  match call.kind with
  | .standIn _ =>
    record (.unreferenced c)
    k.freeData c call.registration
  | .native =>
    if call.attached then
      if call.kept.notifies || call.kept.frees then discard (k.exchange c .none)
      giveUp c

/-- Call the notify function of a registration, if it has one. -/
def notify (k : Callbacks) (c : CallId) (r : Registration) : StateM Host Unit := do
  if r.notifies then
    record (.notified c r.data)
    k.onReply c r.data

/-- The reply of a call comes in; the answer is whether it changes anything. -/
def complete (k : Callbacks) (c : CallId) : StateM Host Bool := do
  let call := (← get).call c
  if call.isReady then
    record (.completed c)
    modifyCall c fun call => { call with completed := true }
    k.notify c call.registration
  return call.isReady

end Callbacks

/-! ## The functions of a session -/

namespace Host

/-- The free function of a session empties the slot of a pending call. -/
def dropData : UserData → StateM Host Unit
  | .slot p => discard (takeSlot p)
  | .note _ => return

/-- The functions of a session as long as no call is answered. -/
def unanswered : Callbacks := ⟨fun _ _ => return, dropData⟩

abbrev freeData (c : CallId) (r : Registration) : StateM Host Unit := unanswered.freeData c r

abbrev exchange (c : CallId) (r : Registration) : StateM Host Bool := unanswered.exchange c r

abbrev setNotify (c : CallId) (r : Registration) : StateM Host Bool := unanswered.setNotify c r

abbrev unreference (c : CallId) : StateM Host Unit := unanswered.unreference c

end Host

/-- The call of a handle that has not given it up. -/
def Session.attachedCall (c : CallId) : Session CallId := do
  if ((← get).call c).attached then return c else throw .noSuchKey

end DBusHost
