import DBusHost.Session.Delivery
import DBusHost.Session.Messages

/-!
# Steps on calls

Pending calls are cancelled, waited for and asked; call handles can be used on
their own; and the session can let the reply of a call come in, or let the native
library free the data of a notify function, at any time.
-/

namespace DBusHost

namespace Host

/-- Note the name under which a call was made. -/
def noteLine (name : String) (c : CallId) : StateM Host Unit :=
  modify fun h => { h with lines := h.lines.put name c }

/-- The native reply that a call will have, under the label of the call's name. -/
def createReply (name : String) : Option Message → StateM Host (Option MessageId)
  | none => return none
  | some message => some <$> createLabelled (name ++ ".reply") message

/-- A new call under a name, with a handle on it. -/
def prepareCall (name : String) (kind : CallKind) (reply : Option Message) :
    StateM Host CallId := do
  let c ← createCall (.start kind (← createReply name reply) true)
  noteLine name c
  return c

end Host

namespace CallStep

def perform (run : Reacting) : CallStep → Session Answer
  | replyArrives name => do return .flag (← Host.complete run (← Session.lineNamed name))
  | freeData name => do
    let c ← Session.lineNamed name
    Host.freeData c ((← get).call c).registration
    return .done
  | cancel name => do
    match ← Session.thing name with
    | .pending p => Pending.cancel p
    | .handle c => Host.cancelCall (← Session.attachedCall c)
    | _ => throw .noSuchAttribute
    return .done
  | block name => do
    match ← Session.thing name with
    | .pending p => Pending.block run p
    | .handle c => Host.blockCall run (← Session.attachedCall c)
    | _ => throw .noSuchAttribute
    return .done
  | completed name => do
    match ← Session.thing name with
    | .pending p => return .flag (← Pending.completed p)
    | _ => throw .noSuchAttribute
  | instantiate => throw .notInstantiable
  | live => return .names (← get).liveHandlers
  | tryLock => return .flag ((← get).lockDepth == 0)
  | newHandle name reply => do
    let c ← Host.prepareCall name .native reply
    Host.assign name (.handle c)
    return .done
  | setNotify name notifies frees data => do
    let c ← Session.handleNamed name
    let data ← Session.build data
    return .flag (← Host.setNotify (← Session.attachedCall c) ⟨notifies, frees, .note data⟩)
  | handleCompleted name => do
    let c ← Session.attachedCall (← Session.handleNamed name)
    return .flag ((← get).call c).completed
  | stealReply name => do
    let c ← Session.attachedCall (← Session.handleNamed name)
    return .flag (← Host.stealReply c).isSome
  | unreference name => do
    Host.unreference (← Session.handleNamed name)
    return .done

end CallStep

end DBusHost
