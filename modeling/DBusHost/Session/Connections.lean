import DBusHost.Session.Messages
import DBusHost.Timeout

/-!
# Steps on connections

Connections to a bus are shared: asking for the same bus again gives one more reference
to the same connection.  A message without a serial number is given the next one of the
connection on which it is sent.
-/

namespace DBusHost

namespace Host

/-- The connection to a bus. -/
def bus (h : Host) (b : String) : Bus := (h.buses.get? b).getD .fresh

def modifyBus (b : String) (f : Bus → Bus) : StateM Host Unit :=
  modify fun h => { h with buses := h.buses.put b (f (h.bus b)) }

def closeBus (b : String) : StateM Host Unit := do
  record (.closed b)
  modifyBus b fun bus => { bus with connected := false }

/-- The native library hands over a reference to the connection to a bus. -/
def openBus (b : String) : StateM Host Unit := do
  match (← get).buses.get? b with
  | some _ => share (.bus b)
  | none =>
    modifyBus b id
    create (.bus b)
    relabel b (.bus b)

end Host

/-- A timeout in milliseconds; without one the library chooses. -/
def Session.milliseconds (timeout : Option Recipe) : Session Int := do
  match timeout with
  | some timeout => Session.ofExcept (timeoutMilliseconds (← Session.build timeout))
  | none => return timeoutDefault

/-- Which of two alternatives a value chooses, counted from either end. -/
def secondOfTwo (x : Value) : Except Fault Bool :=
  match x.integer? with
  | some i =>
    if i = 0 ∨ i = -2 then .ok false
    else if i = 1 ∨ i = -1 then .ok true
    else .error .noSuchIndex
  | none => .error .wrongKind

/-- The cell in which a serial number comes back from the native library. -/
def serialWindow : IntWindow := ⟨false, 32⟩

/-- The error that the native library reports; its name and text end at their first
nul. -/
def reportedError (name text : String) : Fault :=
  .reported (some (Text.beforeNul name)) (Text.beforeNul text)

/-- Give a message a serial number, unless it has one; the answer is its number. -/
def Session.assignSerial (b : String) (m : MessageId) : Session Int := do
  let message ← messageAt m
  if message.serial ≠ 0 then return serialWindow.store message.serial
  let serial := ((← get).bus b).serials + 1
  Host.modifyBus b fun bus => { bus with serials := serial }
  Host.modifyMessage m fun message => { message with serial }
  return serial

namespace ConnectionStep

def perform : ConnectionStep → Session Answer
  | get name type isPrivate outcome => do
    let type ← Session.build type
    let isPrivate ← Session.ofExcept (secondOfTwo (← Session.build isPrivate))
    Host.record (.busRequested isPrivate type)
    match outcome with
    | .nothing => return .connection true []
    | .failed error text => throw (reportedError error text)
    | .given b =>
      Host.openBus b
      return .connection false (← Host.adoptAs name (.bus b))
  | isConnected name => do
    let b ← Session.busNamed name
    return .flag ((← MonadState.get).bus b).connected
  | flush name => do
    Host.record (.flushed (← Session.busNamed name))
    return .done
  | dispatch name timeout => do
    let b ← Session.busNamed name
    Host.record (.dispatched b (← Session.milliseconds (some timeout)))
    return .flag ((← MonadState.get).bus b).connected
  | send name message => do
    let b ← Session.busNamed name
    let m ← message.message
    Session.call .send
    Host.record (.sent b)
    return .number (← Session.assignSerial b m)
  | sendAndWait name connection message outcome timeout => do
    let b ← Session.busNamed connection
    let m ← message.message
    Host.record (.sentAndAwaited b (← Session.milliseconds timeout))
    discard (Session.assignSerial b m)
    match outcome with
    | .nothing => return .nothing
    | .failed error text => throw (reportedError error text)
    | .given reply =>
      let reply ← Host.createMessage reply
      discard (Host.adoptAs name (.message reply))
      return .done

end ConnectionStep

end DBusHost
