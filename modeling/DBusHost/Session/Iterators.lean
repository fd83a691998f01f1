import DBusHost.Session.Names

/-!
# Steps on argument iterators

An iterator either reads or writes, and using it the other way is a misuse.  Reading
iterators see the arguments of their message as they are, also those that are appended
after the iterator was made.

Writing iterators form a tree: each one but the first writes into a container that was
opened in another one, and gives way to it when it is closed or abandoned.
-/

namespace DBusHost

/-- An argument iterator that a name stands for, with its reader as it is now. -/
inductive NamedIterator where
  | reading (id : ReaderId) (iterator : ReadIterator)
  | writing (id : WriterId) (writer : WriteIterator)

namespace Host

/-- A reading iterator that sees its message as it is now. -/
def refresh (h : Host) (r : ReadIterator) : ReadIterator :=
  match r.message.bind h.message? with
  | some message =>
    { r with reader := { r.reader with level := Item.within message.sheet.body r.path } }
  | none => r

/-- Give a new reading iterator a name. -/
def assignReader (name : String) (r : ReadIterator) : StateM Host Unit := do
  let i := (← get).readers.length
  modify fun h => { h with readers := h.readers ++ [r] }
  assign name (.reader i)

/-- Give a new writing iterator a name. -/
def assignWriter (name : String) (w : WriteIterator) : StateM Host Unit := do
  let i := (← get).writers.length
  modify fun h => { h with writers := h.writers ++ [w] }
  assign name (.writer i)

end Host

namespace Session

def iteratorNamed (name : String) : Session NamedIterator := do
  let h ← get
  match ← thing name with
  | .reader i => match h.readers[i]? with
    | some r => return .reading i (h.refresh r)
    | none => throw .noSuchKey
  | .writer i => match h.writers[i]? with
    | some w => return .writing i w
    | none => throw .noSuchKey
  | _ => throw .noSuchAttribute

/-- A name stands for an iterator that reads. -/
def readerNamed (name : String) : Session (ReaderId × ReadIterator) := do
  match ← iteratorNamed name with
  | .reading i r => return (i, r)
  | .writing .. => throw (.misused .readFromWriter)

/-- A name stands for an iterator that a loop can go on with.  A thing that is no iterator
is of the wrong kind for that. -/
def loopedOver (name : String) : Session (ReaderId × ReadIterator) := do
  match ← thing name with
  | .reader _ | .writer _ => readerNamed name
  | .wrapper _ | .pending _ | .handle _ => throw .wrongKind

/-- A name stands for an iterator that writes. -/
def writerNamed (name : String) : Session (WriterId × WriteIterator) := do
  match ← iteratorNamed name with
  | .reading .. => throw (.misused .writeToReader)
  | .writing i w => return (i, w)

end Session

/-- The draft that a writing iterator writes into, with the iterator it was opened in.
The first iterator of a message has none. -/
def WriteIterator.draft (w : WriteIterator) (misuse : Misuse) : Session (Nat × WriterId) :=
  match w.place, w.parent with
  | .draft n, some parent => return (n, parent)
  | _, _ => throw (.misused misuse)

/-- The iterator over the inside of the current item; there is nothing inside the end. -/
def ReadIterator.inside (r : ReadIterator) : ReadIterator where
  message := if r.reader.current?.isSome then r.message else none
  path := r.path ++ [r.reader.position]
  reader := r.reader.inside

def onlyChar (s : String) : Session Char :=
  match s.toList with
  | [c] => return c
  | _ => throw .wrongKind

/-- Close the container that an iterator writes into; the answer is the iterator that it
was opened in. -/
def WriteIterator.close (w : WriteIterator) : Session WriterId := do
  let (n, parent) ← w.draft .closeTopLevel
  Session.writeOn w.message (Writing.closeContainer n)
  return parent

namespace IteratorStep

def perform : IteratorStep → Session Answer
  | .reader name message => do
    let m ← Session.messageNamed message
    let body := (← Session.messageAt m).sheet.body
    Host.assignReader name ⟨some m, [], .ofBody body⟩
    return .done
  | .writer name message => do
    let m ← Session.messageNamed message
    Host.assignWriter name ⟨m, .body, none⟩
    return .done
  | enter name it => do
    let (_, r) ← Session.readerNamed it
    Host.assignReader name r.inside
    return .done
  | advance it => do
    let (i, r) ← Session.loopedOver it
    let (reason, moved) := r.reader.advance
    modify fun h => { h with readers := h.readers.set i { r with reader := moved } }
    match reason with
    | none => return .flag true
    | some reason => throw (.ended reason)
  | restart it => do
    discard (Session.loopedOver it)
    return .flag true
  | object it level => do
    let t ← Session.iteratorNamed it
    let level ← Session.build level
    match t with
    | .reading _ r =>
      return .value (← Session.attempt (r.reader.object (← get).validator level))
    | .writing .. => throw (.misused .readFromWriter)
  | appendBasic it type x => do
    let t ← Session.iteratorNamed it
    let type ← onlyChar type
    let x ← Session.build x
    match t with
    | .reading .. => throw (.misused .writeToReader)
    | .writing _ w =>
      Session.writeOn w.message (Writing.appendValue (← get).validator w.place type x)
      return .flag true
  | openContainer name it type signature => do
    let t ← Session.iteratorNamed it
    let type ← onlyChar type
    let signature ← Session.build signature
    match t with
    | .reading .. => throw (.misused .writeToReader)
    | .writing i w =>
      let signature ← Session.ofExcept (nativeString? signature)
      match ContainerKind.ofCode? (typeCode type) with
      | some kind =>
        let n ← Session.writeOn w.message (Writing.openContainer w.place kind signature)
        Host.assignWriter name ⟨w.message, .draft n, some i⟩
        return .done
      | none => throw .noSuchKey
  | abandon it => do
    let (_, w) ← Session.writerNamed it
    let (n, parent) ← w.draft .abandonTopLevel
    Session.writeOn w.message (Writing.abandonContainer n)
    return .names ((← get).namesOf (.writer parent))

end IteratorStep

end DBusHost
