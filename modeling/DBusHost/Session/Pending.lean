import DBusHost.Session.Handle

/-!
# Pending calls

A pending call owns a call handle and the slot for the reaction to the reply.  The
slot is emptied by whatever comes first: the notification, cancelling, closing, or the
native library freeing the data of the notify function.  After that it stays empty.

A pending call that nothing refers to any more closes itself.  While it is waited for,
the wait refers to it.
-/

namespace DBusHost

namespace Pending

/-- Register a reaction with a call and make a pending call of both.  If that is
refused, the call is cancelled and given up and the reaction is dropped. -/
def register (c : CallId) (reaction : Reaction) : Session PendingId := do
  let p := (← get).pendings.length
  modify fun h => { h with pendings := h.pendings ++ [⟨c, false, reaction⟩] }
  if ← Host.setNotify c ⟨true, true, .slot p⟩ then
    Host.modifyPending p fun pending => { pending with holding := true }
    return p
  Host.record (.logged .debug "cannot register notify function, abandoning call" none)
  Host.cancelCall c
  Host.unreference c
  discard (Host.takeSlot p)
  throw (.noMemory .setNotify)

/-- The call of a pending call that has not been closed. -/
def openCall (p : PendingId) : Session CallId := do
  let pending := (← get).pending p
  if pending.holding then return pending.call else throw .callClosed

def cancel (p : PendingId) : StateM Host Unit := do
  let pending := (← get).pending p
  if pending.holding then Host.cancelCall pending.call
  discard (Host.takeSlot p)

def close (p : PendingId) : StateM Host Unit := do
  let pending := (← get).pending p
  Host.modifyPending p fun pending => { pending with holding := false }
  if pending.holding then Host.unreference pending.call
  discard (Host.takeSlot p)

/-- Whether the reply has come in. -/
def completed (p : PendingId) : Session Bool := do
  let c ← openCall p
  return ((← get).call c).completed

end Pending

end DBusHost
