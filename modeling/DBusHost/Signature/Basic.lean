import DBusHost.TypeCode

/-!
# Complete types and their text

A signature is the text of a list of complete D-Bus types.  `SigType` is the tree of
one complete type; dict entries have no tree of their own, because they occur only
as the elements of an array, where they make a `dict`.

`SigType.chars` writes a type and `readTypes?` reads a signature.  The reader keeps
the types whose brackets are still open on a stack and looks at each character once.
-/

namespace DBusHost

/-- A complete D-Bus type. -/
inductive SigType where
  | basic (type : BasicType)
  | variant
  | array (element : SigType)
  /-- An array of dict entries. -/
  | dict (key : BasicType) (value : SigType)
  | struct (fields : List SigType)
  deriving Repr

namespace SigType

mutual

def chars : SigType → List Char
  | basic t => [t.char]
  | variant => ['v']
  | array e => 'a' :: e.chars
  | dict k v => 'a' :: '{' :: k.char :: v.chars ++ ['}']
  | struct fs => '(' :: listChars fs ++ [')']
termination_by structural t => t

def listChars : List SigType → List Char
  | [] => []
  | t :: ts => t.chars ++ listChars ts
termination_by structural ts => ts

end

def text (t : SigType) : String := String.ofList t.chars

def listText (ts : List SigType) : String := String.ofList (listChars ts)

mutual

/-- Every struct in the type has a field. -/
def hasFields : SigType → Bool
  | basic _ | variant => true
  | array e => e.hasFields
  | dict _ v => v.hasFields
  | struct fs => !fs.isEmpty && listHasFields fs
termination_by structural t => t

def listHasFields : List SigType → Bool
  | [] => true
  | t :: ts => t.hasFields && listHasFields ts
termination_by structural ts => ts

end

mutual

/-- How many round brackets are open around the innermost type. -/
def structDepth : SigType → Nat
  | basic _ | variant => 0
  | array e => e.structDepth
  | dict _ v => v.structDepth
  | struct fs => listStructDepth fs + 1
termination_by structural t => t

def listStructDepth : List SigType → Nat
  | [] => 0
  | t :: ts => max t.structDepth (listStructDepth ts)
termination_by structural ts => ts

end

mutual

/-- How many curly brackets are open around the innermost type. -/
def entryDepth : SigType → Nat
  | basic _ | variant => 0
  | array e => e.entryDepth
  | dict _ v => v.entryDepth + 1
  | struct fs => listEntryDepth fs
termination_by structural t => t

def listEntryDepth : List SigType → Nat
  | [] => 0
  | t :: ts => max t.entryDepth (listEntryDepth ts)
termination_by structural ts => ts

end

mutual

/-- The longest run of array marks anywhere in the type, given that `before` of them
stand directly in front of it. -/
def arrayRun (before : Nat) : SigType → Nat
  | basic _ | variant => before
  | array e => arrayRun (before + 1) e
  | dict _ v => max (before + 1) (arrayRun 0 v)
  | struct fs => max before (listArrayRun fs)
termination_by structural t => t

def listArrayRun : List SigType → Nat
  | [] => 0
  | t :: ts => max (arrayRun 0 t) (listArrayRun ts)
termination_by structural ts => ts

end

end SigType

/-- How deep structs, dict entries and directly nested arrays may each be nested in a
signature. -/
def maximumNesting : Nat := 32

/-- How long a signature may be. -/
def maximumSignatureLength : Nat := 255

/-- The kinds of bracket that open a list of types, and the signature itself. -/
inductive Enclosure where
  | signature | struct | dictEntry
  deriving DecidableEq, Repr

/-- A list of types whose closing bracket has not been read yet: the types read so
far, the last one first, and the number of array marks read since. -/
structure OpenTypes where
  enclosure : Enclosure
  done : List SigType
  arrays : Nat
  deriving Repr

namespace OpenTypes

/-- Put a type under `n` array marks. -/
def underArrays : Nat → SigType → SigType
  | 0, t => t
  | n + 1, t => underArrays n (.array t)

/-- A complete type has been read. -/
def add (o : OpenTypes) (t : SigType) : OpenTypes :=
  { o with done := underArrays o.arrays t :: o.done, arrays := 0 }

/-- Read one character; the innermost open list comes first. -/
def read? (c : Char) : List OpenTypes → Option (List OpenTypes)
  | [] => none
  | o :: outer =>
    if c = 'a' then some ({ o with arrays := o.arrays + 1 } :: outer)
    else if c = 'v' then some (o.add .variant :: outer)
    else if c = '(' then some (⟨.struct, [], 0⟩ :: o :: outer)
    else if c = '{' then
      if o.arrays = 0 then none else some (⟨.dictEntry, [], 0⟩ :: o :: outer)
    else if c = ')' then
      match o, outer with
      | ⟨.struct, t :: ts, 0⟩, o' :: outer' =>
        some (o'.add (.struct (t :: ts).reverse) :: outer')
      | _, _ => none
    else if c = '}' then
      match o, outer with
      | ⟨.dictEntry, [v, .basic k], 0⟩, o' :: outer' =>
        some ({ o' with arrays := o'.arrays - 1 }.add (.dict k v) :: outer')
      | _, _ => none
    else (BasicType.ofChar? c).map fun t => o.add (.basic t) :: outer

/-- Read characters one after the other. -/
def readAll? : List Char → List OpenTypes → Option (List OpenTypes)
  | [], stack => some stack
  | c :: cs, stack => (read? c stack).bind (readAll? cs)

/-- The types of a whole signature, once every bracket is closed. -/
def finish? : List OpenTypes → Option (List SigType)
  | [⟨.signature, done, 0⟩] => some done.reverse
  | _ => none

end OpenTypes

def readTypes? (s : String) : Option (List SigType) :=
  (OpenTypes.readAll? s.toList [⟨.signature, [], 0⟩]).bind OpenTypes.finish?

/-- A text is a well-formed signature: it is a list of complete types, not too long
and not nested too deeply. -/
def isWellFormed (s : String) : Bool :=
  match readTypes? s with
  | none => false
  | some ts =>
    s.utf8ByteSize ≤ maximumSignatureLength && SigType.listStructDepth ts ≤ maximumNesting &&
      SigType.listEntryDepth ts ≤ maximumNesting && SigType.listArrayRun ts ≤ maximumNesting

end DBusHost
