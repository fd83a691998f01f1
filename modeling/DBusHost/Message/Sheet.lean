import DBusHost.Fault
import DBusHost.Message.Item
import DBusHost.Value.Number
import DBusHost.Value.Guess

/-!
# Writing arguments

A `Sheet` is a message body that is being written.  A container is written as a draft
of its own and becomes an item of what it was opened in only when it is closed, so an
abandoned draft leaves no trace in the body.  Whatever is written into a draft after it
was closed shows in that item as well.

Every successful call is recorded as a `PenCall`, together with the place it was made
at, and every call may be made to fail by the script of failures.
-/

namespace DBusHost

/-- Where arguments are written: the body itself or a draft. -/
inductive Place where
  | body
  | draft (index : Nat)
  deriving DecidableEq, Repr

/-- A container that has been opened. -/
structure Draft where
  parent : Place
  kind : ContainerKind
  /-- The signature of the contents that was given when the container was opened. -/
  signature : Option String
  items : List Item
  /-- Where the draft's item stands among the items of the parent. -/
  standing : List Nat
  deriving Repr

/-- The item that a draft becomes when it is closed. -/
def Draft.item (d : Draft) : Item :=
  match d.kind with
  | .array => .array (d.signature.getD "") d.items
  | .struct => .struct d.items
  | .dictEntry => .dictEntry d.items
  | .variant => .variant d.items

/-- A message body with the containers that have been opened in it. -/
structure Sheet where
  body : List Item
  drafts : List Draft
  deriving Repr

namespace Sheet

/-- A body with nothing opened in it. -/
def ofBody (items : List Item) : Sheet := ⟨items, []⟩

def itemsAt (s : Sheet) : Place → List Item
  | .body => s.body
  | .draft n => (s.drafts[n]?.map Draft.items).getD []

def modifyItems (s : Sheet) (p : Place) (f : List Item → List Item) : Sheet :=
  match p with
  | .body => { s with body := f s.body }
  | .draft n => { s with drafts := s.drafts.modify n fun d => { d with items := f d.items } }

/-- Write the item of a draft anew where it stands, and so on outwards. -/
def renew (s : Sheet) (n : Nat) : Sheet :=
  match s.drafts[n]? with
  | none => s
  | some d =>
    if d.standing.isEmpty then s
    else
      let s := s.modifyItems d.parent fun items =>
        d.standing.foldl (fun items i => items.set i d.item) items
      match d.parent with
      | .body => s
      | .draft m => if m < n then s.renew m else s
termination_by n

/-- Nothing is written anew for a draft that stands nowhere, as one that was not closed. -/
theorem renew_of_standing_eq_nil {s : Sheet} {n : Nat} {d : Draft} (h : s.drafts[n]? = some d)
    (hd : d.standing = []) : s.renew n = s := by
  rw [renew]
  simp [h, hd]

/-- Put an item behind the items of a place. -/
def add (s : Sheet) (p : Place) (item : Item) : Sheet :=
  let s := s.modifyItems p fun items => items ++ [item]
  match p with
  | .body => s
  | .draft n => s.renew n

/-- Start a draft behind all others. -/
def openDraft (s : Sheet) (p : Place) (k : ContainerKind) (signature : Option String) : Sheet :=
  { s with drafts := s.drafts ++ [⟨p, k, signature, [], []⟩] }

/-- Put a draft's item into what it was opened in. -/
def close (s : Sheet) (n : Nat) : Sheet :=
  match s.drafts[n]? with
  | some d =>
    let drafts := s.drafts.set n { d with standing := d.standing ++ [(s.itemsAt d.parent).length] }
    { s with drafts }.add d.parent d.item
  | none => s

end Sheet

/-- A call that reached the native library while arguments were written. -/
inductive PenCall where
  | basic (place : Place) (type : Char) (content : Scalar)
  | opened (place : Place) (kind : ContainerKind) (signature : Option String) (draft : Nat)
  | closed (draft : Nat)
  | abandoned (draft : Nat)
  deriving DecidableEq, Repr

/-- What writing works on: the script of failures, the sheet, and the calls so far. -/
structure Desk where
  failures : Failures
  sheet : Sheet
  calls : List PenCall

/-- A fallible computation that writes arguments. -/
abbrev Writing := ExceptT Fault (StateM Desk)

namespace Writing

/-- Call a native routine, which fails if the script of failures says so. -/
def call (r : Routine) : Writing Unit := fun d =>
  let (ok, f) := Failures.call r d.failures
  (if ok then .ok () else .error (.noMemory r), { d with failures := f })

def record (c : PenCall) : Writing Unit :=
  modify fun d => { d with calls := d.calls ++ [c] }

def appendBasic (p : Place) (type : Char) (content : Scalar) : Writing Unit := do
  call .appendBasic
  record (.basic p type content)
  modify fun d => { d with sheet := d.sheet.add p (.basic type content) }

/-- Open a container at a place and return the number of its draft. -/
def openContainer (p : Place) (k : ContainerKind) (signature : Option String) :
    Writing Nat := do
  call .openContainer
  let n := (← get).sheet.drafts.length
  record (.opened p k signature n)
  modify fun d => { d with sheet := d.sheet.openDraft p k signature }
  return n

def closeContainer (n : Nat) : Writing Unit := do
  call .closeContainer
  record (.closed n)
  modify fun d => { d with sheet := d.sheet.close n }

/-- Abandon a container; that cannot fail. -/
def abandonContainer (n : Nat) : Writing Unit := record (.abandoned n)

/-- Open a container, fill it and close it.  If filling it fails the container is
abandoned; if closing it fails it is left alone. -/
def inContainer (p : Place) (k : ContainerKind) (signature : Option String)
    (fill : Place → Writing Unit) : Writing Unit := do
  let n ← openContainer p k signature
  tryCatch (fill (.draft n)) fun f => do
    abandonContainer n
    throw f
  closeContainer n

end Writing

/-- The content of the native cell for a value of a basic type.  Integers are checked
against the type's window, texts end at their first nul, and a signature is checked. -/
def BasicType.cell (v : Validator) (t : BasicType) (x : Value) : Except Fault Scalar :=
  match t.window? with
  | some w => do
    let i ← Value.checkInteger w x
    return .integer (stored t i)
  | none =>
    match t with
    | .boolean => .ok (.integer (stored t x.truth.toInt))
    | .double => .double <$> x.toDouble
    | .signature => do
      let g ← Signature.ofValue v x
      return .string (Text.beforeNul g.text)
    | t => match x.text? with
      | some s => .ok (.string (Text.beforeNul s))
      | none => .error (.textExpected t.char x.kindName)
where
  /-- An integer as the cell of the type keeps it. -/
  stored (t : BasicType) (i : Int) : Int :=
    match t.storage with
    | .integer w => w.store i
    | .double | .string => i

/-- Append a value as a basic type that a character names. -/
def Writing.appendValue (v : Validator) (p : Place) (type : Char) (x : Value) : Writing Unit :=
  match BasicType.ofChar? type with
  | none => throw .noSuchKey
  | some t => do
    let content ← liftExcept (t.cell v x)
    appendBasic p type content
where
  liftExcept {α : Type} (e : Except Fault α) : Writing α := fun d => (e, d)

end DBusHost
