import DBusHost.Container.Method
import DBusHost.Session.Connections
import DBusHost.Session.Iterators

/-!
# Steps on things of every sort

A property is looked at, or set, by its name, whatever the thing is that has it.  The
methods of a thing are properties as well, of which only the kind can be seen.  Nothing
but two properties of messages can be set.

Connections, pending calls and writing iterators can be closed.
-/

namespace DBusHost

/-- What can be read off an argument iterator. -/
inductive Aspect where
  | argumentType | elementType | signature | basic | object
  deriving DecidableEq, Repr

/-- The aspects by their published names. -/
def Aspect.ofName? : String → Option Aspect
  | "arg_type" => some argumentType
  | "element_type" => some elementType
  | "signature" => some signature
  | "basic" => some basic
  | "object" => some object
  | _ => none

/-- The value of an aspect of the item that a reader stands on. -/
def Reader.look (v : Validator) (r : Reader) : Aspect → Session Answer
  | .argumentType => return .number r.code
  | .elementType => return .number r.elementCode
  | .signature => return .text (← Session.attempt r.text)
  | .basic => return .value (← Session.ofExcept (r.basic v))
  | .object => return .value (← Session.attempt (r.object v (.int 0)))

def messageMethods : List String :=
  ["append_objects", "consume", "iter_init", "iter_init_append", "new_error",
    "new_method_call", "new_method_return", "new_signal", "raise_if_error"]

def iteratorMethods : List String :=
  ["abandon", "append_basic", "close", "get_object", "open_container", "recurse"]

def connectionMethods : List String :=
  ["bus_get", "close", "flush", "read_write_dispatch", "send", "send_with_reply",
    "send_with_reply_and_block"]

def pendingMethods : List String := ["block", "cancel", "close"]

def handleMethods : List String :=
  ["block", "cancel", "get_completed", "set_notify", "steal_reply", "unref"]

namespace Session

def lookAtMethod (methods : List String) (property : String) : Session Answer :=
  if methods.contains property then return .value (.object MethodForm.bound.kindName)
  else throw .noSuchAttribute

def lookAtMessage (m : MessageId) (property : String) : Session Answer := do
  let message ← messageAt m
  let v := (← get).validator
  match HeaderField.ofName? property with
  | some field => return .value (← ofExcept (message.get v field))
  | none =>
    match property with
    | "all_objects" => return .values (← attempt (message.objects v))
    | "objects" => return .value (.object "generator")
    | "Iter" => return .value (.object MethodForm.class_.kindName)
    | _ => lookAtMethod messageMethods property

/-- Look at a property of an iterator; that of a writing iterator cannot be read. -/
def lookAtIterator (it : NamedIterator) (property : String) : Session Answer := do
  match Aspect.ofName? property, it with
  | some aspect, .reading _ r => r.reader.look (← get).validator aspect
  | some _, .writing .. => throw (.misused .readFromWriter)
  | none, _ => lookAtMethod iteratorMethods property

def lookAtPending (p : PendingId) (property : String) : Session Answer := do
  if property = "completed" then return .flag (← Pending.completed p)
  lookAtMethod pendingMethods property

def lookAtBus (b : String) (property : String) : Session Answer := do
  if property = "is_connected" then return .flag ((← get).bus b).connected
  lookAtMethod connectionMethods property

def look (name property : String) : Session Answer := do
  let t ← thing name
  match t with
  | .reader _ | .writer _ => lookAtIterator (← iteratorNamed name) property
  | .pending p => lookAtPending p property
  | .handle _ => lookAtMethod handleMethods property
  | .wrapper _ =>
    match (← get).messageOf? t, (← get).busOf? t with
    | some m, _ => lookAtMessage m property
    | none, some b => lookAtBus b property
    | none, none => throw .noSuchAttribute

def setOnMessage (m : MessageId) (property : String) (x : Value) : Session Unit :=
  match HeaderField.ofName? property with
  | some .serial => match x.integer? with
    | some i => Host.modifyMessage m fun message => { message with serial := i }
    | none => throw .wrongKind
  | some .noReply =>
    Host.modifyMessage m fun message => { message with noReply := x.truth }
  | _ => throw .noSuchAttribute

/-- Close the thing that a name stands for; the answer is the thing that it was opened
in, if it was opened in one. -/
def close (name : String) : Session (Option Thing) := do
  match ← thing name with
  | .pending p =>
    Pending.close p
    return none
  | .wrapper _ =>
    Host.closeBus (← busNamed name)
    return none
  | .reader _ | .writer _ =>
    let (_, w) ← writerNamed name
    return some (.writer (← w.close))
  | .handle _ => throw .noSuchAttribute

end Session

namespace ThingStep

def perform : ThingStep → Session Answer
  | look name property => Session.look name property
  | set name property x => do
    let t ← Session.thing name
    let x ← Session.build x
    match (← get).messageOf? t with
    | some m =>
      Session.setOnMessage m property x
      return .done
    | none => throw .noSuchAttribute
  | close name => do
    discard (Session.close name)
    return .done
  | closeInside name => do
    match ← Session.close name with
    | some parent => return .names ((← get).namesOf parent)
    | none => return .names []
  | drop name => do
    Session.drop name
    return .done

end ThingStep

end DBusHost
