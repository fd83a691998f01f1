import DBusHost.Message.Marshal
import DBusHost.Message.Unmarshal

/-!
# Messages

A message has a kind, a number of header fields and a body of arguments.  Strings in
the header cross into the native library and so end at their first nul.

Replies to a message refer to its serial number and go to its sender.
-/

namespace DBusHost

structure Message where
  kind : Int
  path : Option String := none
  interface : Option String := none
  member : Option String := none
  errorName : Option String := none
  destination : Option String := none
  sender : Option String := none
  serial : Int := 0
  replySerial : Int := 0
  noReply : Bool := false
  sheet : Sheet := .ofBody []

/-- The properties of a message that can be looked at. -/
inductive HeaderField where
  | kind | isError | path | interface | member | errorName | destination | sender
  | signature | serial | replySerial | noReply
  deriving DecidableEq, Repr

namespace HeaderField

def name : HeaderField → String
  | kind => "type"
  | isError => "is_error"
  | path => "path"
  | interface => "interface"
  | member => "member"
  | errorName => "error_name"
  | destination => "destination"
  | sender => "sender"
  | signature => "signature"
  | serial => "serial"
  | replySerial => "reply_serial"
  | noReply => "no_reply"

def all : List HeaderField :=
  [kind, isError, path, interface, member, errorName, destination, sender, signature,
    serial, replySerial, noReply]

def ofName? (s : String) : Option HeaderField := all.find? fun f => f.name == s

end HeaderField

/-- A value as a string for the native library: it has to be text. -/
def nativeString (x : Value) : Except Fault String :=
  match x.text? with
  | some s => .ok (Text.beforeNul s)
  | none => .error .noSuchAttribute

/-- A value as a string for the native library, which may be missing. -/
def nativeString? : Value → Except Fault (Option String)
  | .null => .ok none
  | x => some <$> nativeString x

namespace Message

def textValue : Option String → Value
  | some s => .text s
  | none => .null

def signature (v : Validator) (m : Message) : Except Fault Signature :=
  Signature.ofText v (Item.bodyText m.sheet.body)

def isError (m : Message) : Bool := m.kind == MessageKind.error.code

def get (v : Validator) (m : Message) : HeaderField → Except Fault Value
  | .kind => .ok (.int m.kind)
  | .isError => .ok (.bool m.isError)
  | .path => .ok ((m.path.map Value.path).getD .null)
  | .interface => .ok (textValue m.interface)
  | .member => .ok (textValue m.member)
  | .errorName => .ok (textValue m.errorName)
  | .destination => .ok (textValue m.destination)
  | .sender => .ok (textValue m.sender)
  | .signature => .signature <$> m.signature v
  | .serial => .ok (.int m.serial)
  | .replySerial => .ok (.int m.replySerial)
  | .noReply => .ok (.bool m.noReply)

def methodCall (destination path interface member : Value) : Except Fault Message := do
  let destination ← nativeString? destination
  let path ← nativeString? path
  let interface ← nativeString? interface
  let member ← nativeString? member
  return { kind := MessageKind.methodCall.code, destination, path, interface, member }

def signal (path interface member : Value) : Except Fault Message := do
  let path ← nativeString path
  let interface ← nativeString interface
  let member ← nativeString member
  return {
    kind := MessageKind.signal.code
    path := some path
    interface := some interface
    member := some member
    noReply := true }

def answer (m : Message) : Message where
  kind := MessageKind.methodReturn.code
  destination := m.sender
  replySerial := m.serial
  noReply := true

/-- The answer to a message that reports an error, with a text as its argument if one
is given. -/
def errorAnswer (m : Message) (name text : Value) : Except Fault Message := do
  let name ← nativeString name
  let text ← nativeString? text
  return {
    kind := MessageKind.error.code
    errorName := some name
    destination := m.sender
    replySerial := m.serial
    noReply := true
    sheet := .ofBody (text.toList.map fun s => .basic BasicType.string.char (.string s)) }

/-- All arguments of the message. -/
def objects (v : Validator) (m : Message) : Attempt (List Value) :=
  Item.objects v m.sheet.body

/-- Fail with the error that the message reports, if it is an error.  Its text is the
first argument, if that is text. -/
def raiseIfError (v : Validator) (m : Message) : Attempt Unit := do
  if m.isError then
    let values ← m.objects v
    throw (.reported m.errorName ((values.head?.bind Value.text?).getD ""))

end Message

end DBusHost
