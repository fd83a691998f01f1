import DBusHost.Session.Names

/-!
# Steps on messages

Messages are made by the host or received by the native library, filled with arguments
and read.  A message that the native library has received has to be taken over first.
-/

namespace DBusHost

/-- The native library makes a message under a label, with one reference. -/
def Host.createLabelled (name : String) (message : Message) : StateM Host MessageId := do
  let m ← createMessage message
  relabel name (.message m)
  return m

namespace MessageStep

/-- Make a message with a native routine. -/
def make (name : String) (r : Routine) (message : Message) : Session Answer := do
  Session.call r
  let m ← Host.createMessage message
  discard (Host.adoptAs name (.message m))
  return .done

def perform : MessageStep → Session Answer
  | newCall name destination path interface member => do
    let destination ← Session.build destination
    let path ← Session.build path
    let interface ← Session.build interface
    let member ← Session.build member
    let message ← Session.ofExcept (Message.methodCall destination path interface member)
    make name .newMethodCall message
  | newSignal name path interface member => do
    let path ← Session.build path
    let interface ← Session.build interface
    let member ← Session.build member
    let message ← Session.ofExcept (Message.signal path interface member)
    make name .newSignal message
  | newReturn name call => do
    let m ← Session.messageNamed call
    make name .newMethodReturn (← Session.messageAt m).answer
  | newError name call error text => do
    let m ← Session.messageNamed call
    let error ← Session.build error
    let text ← Session.build text
    let message ← Session.ofExcept ((← Session.messageAt m).errorAnswer error text)
    make name .newError message
  | receive name message => do
    discard (Host.createLabelled name message)
    return .done
  | consume name source => do
    match ← Session.labelled source with
    | .message m => return .names (← Host.adoptAs name (.message m))
    | .bus _ => throw .noSuchKey
  | share source => do
    Host.share (← Session.labelled source)
    return .done
  | references source => do
    let r ← Session.labelled source
    return .number ((← get).count r)
  | append name signature x => do
    let m ← Session.messageNamed name
    let signature ← Session.build signature
    let x ← Session.build x
    let v := (← get).validator
    Session.writeOn m (Marshal.append v signature x)
    let message ← Session.messageAt m
    return .text (← Session.ofExcept (message.signature v)).text
  | objects name => do
    let m ← Session.messageNamed name
    let message ← Session.messageAt m
    return .values (← Session.attempt (message.objects (← get).validator))
  | raiseIfError name => do
    let m ← Session.messageNamed name
    let message ← Session.messageAt m
    Session.attempt (message.raiseIfError (← get).validator)
    return .done

end MessageStep

end DBusHost
