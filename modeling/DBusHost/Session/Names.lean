import DBusHost.Session.Pending

/-!
# Names

The things of a session are known by names.  Giving a name to a thing takes it away
from what it stood for before; a message, a connection or a pending call that nothing
refers to any more is then disposed of.

The native library's objects have labels, which stay when the names go.  What the native
library makes takes its label over; a message that the host gives a name to is labelled
with it only if that is no label yet.
-/

namespace DBusHost

namespace Host

/-- A thing loses one of those that refer to it. -/
def letGo (t : Thing) : StateM Host Unit := do
  match t with
  | .wrapper w => letGoWrapper w
  | .pending p =>
    let h ← get
    unless h.names.any (fun e => e.2 = t) || h.waiting.contains p do Pending.close p
  | .handle _ | .reader _ | .writer _ => return

def messageOf? (h : Host) : Thing → Option MessageId
  | .wrapper w => match h.wrappers[w]? with
    | some ⟨.message m, _⟩ => some m
    | _ => none
  | _ => none

/-- Let a name stand for a thing.  It becomes the label of a message too, if it is free. -/
def assign (name : String) (t : Thing) : StateM Host Unit := do
  let old := (← get).names.get? name
  modify fun h => { h with names := h.names.put name t }
  if let some m := (← get).messageOf? t then label name (.message m)
  if let some old := old then letGo old

/-- Take over one reference to a native object and give its wrapper a name.  The answer
is the names that the wrapper had before. -/
def adoptAs (name : String) (r : Resource) : StateM Host (List String) := do
  let w ← adopt r
  let same := (← get).namesOf (.wrapper w)
  assign name (.wrapper w)
  return same

def busOf? (h : Host) : Thing → Option String
  | .wrapper w => match h.wrappers[w]? with
    | some ⟨.bus b, _⟩ => some b
    | _ => none
  | _ => none

end Host

namespace Session

def thing (name : String) : Session Thing := do
  match (← get).names.get? name with
  | some t => return t
  | none => throw .noSuchKey

/-- Forget a name. -/
def drop (name : String) : Session Unit := do
  let t ← thing name
  modify fun h => { h with names := h.names.erase name }
  Host.letGo t

def messageNamed (name : String) : Session MessageId := do
  match (← get).messageOf? (← thing name) with
  | some m => return m
  | none => throw .noSuchAttribute

def busNamed (name : String) : Session String := do
  match (← get).busOf? (← thing name) with
  | some b => return b
  | none => throw .noSuchAttribute

/-- The native object of a label. -/
def labelled (name : String) : Session Resource := do
  match (← get).labels.get? name with
  | some r => return r
  | none => throw .noSuchKey

def lineNamed (name : String) : Session CallId := do
  match (← get).lines.get? name with
  | some c => return c
  | none => throw .noSuchKey

def handleNamed (name : String) : Session CallId := do
  match ← thing name with
  | .handle c => return c
  | _ => throw .noSuchAttribute

end Session

def Subject.message : Subject → Session MessageId
  | named name => do
    match (← get).messageOf? (← Session.thing name) with
    | some m => return m
    | none => throw .notMessage
  | foreign => throw .notMessage

end DBusHost
