import DBusHost.Session.Names

/-!
# Delivery of replies

When a reply comes in, the notify function of the call is called.  That of a pending
call holds the host lock, takes the reaction out of the slot and the reply out of the
call, and starts the handler on the reply.  What the handler raises is logged and goes
no further.

How a handler runs is a parameter of this module, since handlers consist of steps,
which may deliver replies again.
-/

namespace DBusHost

/-- How a handler's actions run on the reply in a wrapper, for a delivery of a given
number.  The answer is the class of the exception that was raised, if one was. -/
abbrev Reacting := WrapperId → Nat → List Action → StateM Host (Option String)

/-- The identity of a handler. -/
def Reaction.id? : Reaction → Option String
  | handler id _ => some id
  | absent | inert => none

namespace Host

def lock : StateM Host Unit := do
  modify fun h => { h with lockDepth := h.lockDepth + 1 }
  record .locked

def unlock : StateM Host Unit := do
  modify fun h => { h with lockDepth := h.lockDepth - 1 }
  record .unlocked

/-- The logged text about a handler that raised an exception. -/
def handlerFailure : String := "Unhandled exception in pending call reply handler"

/-- Run a handler that has been started on a reply. -/
def runHandler (react : Reacting) (p : PendingId) (w : WrapperId) (m : MessageId)
    (id : String) (actions : List Action) : StateM Host Unit := do
  let n := (← get).deliveries.length
  let v := (← get).validator
  let message := ((← get).message? m).getD { kind := noType }
  let objects ← Session.result (Session.attempt (message.objects v))
  modify fun h => { h with deliveries := h.deliveries ++ [⟨id, message.kind, objects, []⟩] }
  let raised ← react w n actions
  record (.finished p raised)
  if raised.isSome then record (.logged .error handlerFailure raised)

def react (run : Reacting) (p : PendingId) (w : WrapperId) (m : MessageId) :
    Reaction → StateM Host Unit
  | .absent => return
  | .inert => record (.logged .error handlerFailure FaultKind.type.name)
  | .handler id actions => do
    record (.started p id w)
    runHandler run p w m id actions

/-- The notify function of pending calls. -/
def deliver (run : Reacting) (c : CallId) (p : PendingId) : StateM Host Unit := do
  lock
  let reaction ← takeSlot p
  match ← stealReply c with
  | none =>
    record (.warned "D-Bus notify function was called for an incomplete pending call")
    record (.logged .warning "notify function called for an incomplete pending call" none)
    unlock
  | some m =>
    let w ← adopt (.message m)
    modify fun h => { h with frames := ⟨w, reaction.id?⟩ :: h.frames }
    react run p w m reaction
    unlock
    modify fun h => { h with frames := h.frames.tail }
    letGoWrapper w

/-- The functions that a session registers. -/
def registered (run : Reacting) : Callbacks where
  onReply c
    | .slot p => deliver run c p
    | .note _ => return
  onFree := dropData

abbrev notify (run : Reacting) (c : CallId) (r : Registration) : StateM Host Unit :=
  (registered run).notify c r

/-- The reply of a call comes in; the answer is whether it changes anything. -/
abbrev complete (run : Reacting) (c : CallId) : StateM Host Bool := (registered run).complete c

/-- Wait until the reply of a call has come in. -/
def blockCall (run : Reacting) (c : CallId) : StateM Host Unit := do
  record (.blocked c)
  discard (complete run c)

/-- The handlers in slots and in deliveries in progress. -/
def liveHandlers (h : Host) : List String :=
  (h.pendings.filterMap (fun p => p.slot.id?) ++ h.frames.filterMap Frame.handler).mergeSort
    fun a b => a ≤ b

end Host

/-- Wait until the reply of a pending call has come in. -/
def Pending.block (run : Reacting) (p : PendingId) : Session Unit := do
  let c ← openCall p
  modify fun h => { h with waiting := p :: h.waiting }
  Host.blockCall run c
  modify fun h => { h with waiting := h.waiting.tail }
  Host.letGo (.pending p)

end DBusHost
