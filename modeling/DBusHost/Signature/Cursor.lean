import DBusHost.Signature.Checked

/-!
# Walking over a signature

A cursor stands on one complete type of a level of a signature: the top level, the
fields of a struct, the two halves of a dict entry, or the one element type of an
array.  It can move to the next type of the level and it can enter a container.

A new cursor stands before the first type until it has been moved once, so that a
loop sees the first type too; all properties look at the first type from the start.
-/

namespace DBusHost

/-- A fallible computation during which native routines are called. -/
abbrev Attempt := ExceptT Fault (StateM Failures)

/-- Call a native routine, which fails if the script of failures says so. -/
def Attempt.call (r : Routine) : Attempt Unit := fun f =>
  let (ok, f) := Failures.call r f
  (if ok then .ok () else .error (.noMemory r), f)

/-- Whether a bracket opens a list of types. -/
def isOpening (c : Char) : Bool := c == '(' || c == '{'

/-- Whether a bracket closes a list of types. -/
def isClosing (c : Char) : Bool := c == ')' || c == '}'

/-- How many brackets are open after a character, if `depth` are open before it. -/
def depthAfter (depth : Nat) (c : Char) : Nat :=
  if isOpening c then depth + 1 else if isClosing c then depth - 1 else depth

/-- Split after the bracket that closes the `depth` innermost open ones. -/
def splitClosing : Nat → List Char → List Char × List Char
  | _, [] => ([], [])
  | depth, c :: rest =>
    if depthAfter depth c = 0 then ([c], rest)
    else
      let (inside, after) := splitClosing (depthAfter depth c) rest
      (c :: inside, after)

/-- Split after the first complete type. -/
def splitType : List Char → List Char × List Char
  | [] => ([], [])
  | c :: rest =>
    if c = 'a' then
      let (inside, after) := splitType rest
      (c :: inside, after)
    else if isOpening c then
      let (inside, after) := splitClosing 1 rest
      (c :: inside, after)
    else ([c], rest)

theorem splitClosing_append (depth : Nat) (cs : List Char) :
    (splitClosing depth cs).1 ++ (splitClosing depth cs).2 = cs := by
  induction cs generalizing depth with
  | nil => rfl
  | cons c rest ih =>
    simp only [splitClosing]
    split
    · rfl
    · exact congrArg (c :: ·) (ih _)

/-- Splitting loses nothing. -/
theorem splitType_append (cs : List Char) : (splitType cs).1 ++ (splitType cs).2 = cs := by
  induction cs with
  | nil => rfl
  | cons c rest ih =>
    simp only [splitType]
    split
    · simp [ih]
    · split <;> simp [splitClosing_append]

/-- A position in a signature. -/
structure Cursor where
  /-- The signature from the current type on, beyond the end of the level. -/
  rest : List Char
  /-- Whether the level is the element type of an array. -/
  inArray : Bool
  /-- Whether the cursor has not been moved yet. -/
  fresh : Bool
  deriving DecidableEq, Repr

namespace Cursor

/-- The type code of the first character, or of no type at the end of a level. -/
def codeOf : List Char → Nat
  | [] => noType
  | c :: _ => if isClosing c then noType else typeCode c

/-- The cursor before the first type of a signature. -/
def start (g : Signature) : Cursor := ⟨g.text.toList, false, true⟩

def code (c : Cursor) : Nat := codeOf c.rest

/-- The code of the element type of an array, and no type otherwise. -/
def elementCode (c : Cursor) : Nat :=
  if c.code = ContainerKind.array.code then codeOf c.rest.tail else noType

/-- The current type can be entered. -/
def isContainer (c : Cursor) : Bool :=
  c.code == ContainerKind.array.code || c.code == ContainerKind.struct.code ||
    c.code == ContainerKind.dictEntry.code

def current (c : Cursor) : List Char :=
  if c.code = noType then [] else (splitType c.rest).1

/-- Move to the next type of the level; the last one is not left. -/
def next? (c : Cursor) : Option Cursor :=
  let after := (splitType c.rest).2
  if c.inArray ∨ codeOf after = noType then none
  else some { c with rest := after, fresh := false }

/-- Move on in a loop: the first time to the first type, then to the next one.  The
answer is why there is none, if there is none. -/
def advance (c : Cursor) : Option EndReason × Cursor :=
  if c.fresh then
    (if c.code = noType then some .emptySignature else none, { c with fresh := false })
  else match c.next? with
    | some c => (none, c)
    | none => (some .endOfSignature, c)

def inside (c : Cursor) : Cursor :=
  ⟨c.rest.tail, c.code == ContainerKind.array.code, true⟩

/-- The text of the current type, asked of the native library unless there is none. -/
def text (c : Cursor) : Attempt String := do
  if c.code = noType then return ""
  Attempt.call .signatureText
  return String.ofList c.current

/-- Enter the current type, which has to be a container. -/
def enter (c : Cursor) : Attempt Cursor := do
  if c.isContainer then return c.inside
  throw (.notContainerType (Text.quoted (← c.text)))

/-- The texts of the types from a cursor on, at most `fuel` of them. -/
def texts : Nat → Cursor → Attempt (List String)
  | 0, _ => pure []
  | fuel + 1, c =>
    match c.advance with
    | (some _, _) => pure []
    | (none, c) => do
      let first ← c.text
      return first :: (← texts fuel c)

end Cursor

/-- The complete types of a signature, each as a signature of its own. -/
def Signature.pieces (g : Signature) : Attempt (List Signature) := do
  let texts ← Cursor.texts g.text.length (Cursor.start g)
  return texts.map Signature.mk

/-- What a walk over a signature sees at one type. -/
inductive Visit where
  | mk (code elementCode : Nat) (text : String) (inside : Option (List Visit))

/-- Walk over all types from a cursor on and into all containers.  A signature of
`n` characters needs no more fuel than `n + 1`, for every step leaves a character
behind. -/
def Cursor.explore : Nat → Cursor → Attempt (List Visit)
  | 0, _ => pure []
  | fuel + 1, c =>
    match c.advance with
    | (some _, _) => pure []
    | (none, c) => do
      let text ← c.text
      let inside ← if c.isContainer then some <$> explore fuel c.inside else pure none
      return .mk c.code c.elementCode text inside :: (← explore fuel c)

/-- Walk over all types of a signature and into all containers. -/
def Signature.explore (g : Signature) : Attempt (List Visit) :=
  Cursor.explore (g.text.length + 1) (Cursor.start g)

end DBusHost
