import DBusHost.Message.Sheet

/-!
# Marshalling values

Values are written according to complete types, one value for each type.  A basic
type takes one value, an array a list, a tuple or bytes, a dict a map, and a struct a
list or tuple with one value for each field.  A variant takes a value of any type that
can be guessed, and wraps it as often as the value's level says, at least once.

The recursion is on the value.  What a value has to offer to a type, its `Parts`, is
collected first; `writePlain` then looks at the type.
-/

namespace DBusHost

/-- What a value offers to the types that have parts: a way to write its items as
elements of one type, as fields of a struct, and its entries as dict entries. -/
structure Parts where
  elements : Option (SigType → Place → Writing Unit)
  fields : Option (List SigType → Place → Writing Unit)
  entries : Option (BasicType → SigType → Place → Writing Unit)

def Parts.none : Parts := ⟨.none, .none, .none⟩

namespace Marshal

/-- Turn a plain failure into one of writing. -/
def lift {α : Type} (e : Except Fault α) : Writing α := fun d => (e, d)

/-- Write a value as a type that is not a variant.  No guessed signature starts with a
variant, so that case does not arise. -/
def writePlain (v : Validator) (t : SigType) (x : Value) (parts : Parts) (p : Place) :
    Writing Unit :=
  match t with
  | .basic b => Writing.appendValue v p b.char x
  | .array e => match parts.elements with
    | some write => do
      Writing.call .signatureText
      Writing.inContainer p .array (some e.text) (write e)
    | none => throw .arrayNeedsSequence
  | .dict k w => match parts.entries with
    | some write => do
      Writing.call .signatureText
      Writing.inContainer p .array (some (String.ofList (t.chars.drop 1))) (write k w)
    | none => throw .entriesNeedMap
  | .struct fs => match parts.fields with
    | some write => Writing.inContainer p .struct none (write fs)
    | none => throw .structNeedsSequence
  | .variant => throw (.unknownType (Text.quoted t.text))

/-- Write one value as the types of a guessed signature, of which there ought to be one. -/
def writeGuessed (v : Validator) (ts : List SigType) (x : Value) (parts : Parts) (p : Place) :
    Writing Unit :=
  match ts with
  | [] => throw .tooManyValues
  | [t] => writePlain v t x parts p
  | t :: _ => do
    writePlain v t x parts p
    throw .tooFewValues

/-- Write a value in one variant more than `outer` says. -/
def writeVariant (v : Validator) (x : Value) (parts : Parts) : Nat → Place → Writing Unit
  | 0, p => do
    let contents ← lift (x.guessPlain v)
    Writing.inContainer p .variant (some contents) fun q => do
      let g ← lift (Signature.ofText v contents)
      let ts ← lift g.types
      writeGuessed v ts x parts q
  | outer + 1, p =>
    Writing.inContainer p .variant (some "v") (writeVariant v x parts outer)

def writeAs (v : Validator) (t : SigType) (x : Value) (parts : Parts) (p : Place) :
    Writing Unit :=
  match t with
  | .variant => writeVariant v x parts (x.level - 1) p
  | t => writePlain v t x parts p

/-- Write bytes as the elements of an array. -/
def byteParts (v : Validator) (bs : List UInt8) : Parts :=
  { Parts.none with
    elements := some fun e p => bs.forM fun b => writeAs v e (Value.ofByte b) .none p }

mutual

def write (v : Validator) (t : SigType) (p : Place) : Value → Writing Unit
  | .list xs =>
    writeAs v t (.list xs)
      ⟨some fun e q => writeEach v e q xs, some fun fs q => writeFields v fs q xs, none⟩ p
  | .tuple xs =>
    writeAs v t (.tuple xs)
      ⟨some fun e q => writeEach v e q xs, some fun fs q => writeFields v fs q xs, none⟩ p
  | .array xs tag =>
    writeAs v t (.array xs tag)
      ⟨some fun e q => writeEach v e q xs, some fun fs q => writeFields v fs q xs, none⟩ p
  | .struct xs tag =>
    writeAs v t (.struct xs tag)
      ⟨some fun e q => writeEach v e q xs, some fun fs q => writeFields v fs q xs, none⟩ p
  | .map es =>
    writeAs v t (.map es) ⟨none, none, some fun k w q => writeEntries v k w q es⟩ p
  | .dictionary es tag =>
    writeAs v t (.dictionary es tag) ⟨none, none, some fun k w q => writeEntries v k w q es⟩ p
  | .bytes bs => writeAs v t (.bytes bs) (byteParts v bs) p
  | .buffer bs => writeAs v t (.buffer bs) (byteParts v bs) p
  | x => writeAs v t x .none p
termination_by structural x => x

/-- Write values as elements of one type. -/
def writeEach (v : Validator) (e : SigType) (p : Place) : List Value → Writing Unit
  | [] => pure ()
  | x :: xs => do
    write v e p x
    writeEach v e p xs
termination_by structural xs => xs

def writeFields (v : Validator) (ts : List SigType) (p : Place) : List Value → Writing Unit
  | [] => match ts with
    | [] => pure ()
    | _ :: _ => throw .tooFewValues
  | x :: xs => match ts with
    | [] => throw .tooManyValues
    | t :: ts => do
      write v t p x
      writeFields v ts p xs
termination_by structural xs => xs

/-- Write entries as dict entries. -/
def writeEntries (v : Validator) (k : BasicType) (w : SigType) (p : Place) :
    List (Value × Value) → Writing Unit
  | [] => pure ()
  | (x, y) :: es => do
    Writing.inContainer p .dictEntry none fun q => do
      write v (.basic k) q x
      write v w q y
    writeEntries v k w p es
termination_by structural es => es

end

/-- The values that are to be written: the items of a list or tuple, or the one value. -/
def arguments (x : Value) : List Value := x.items?.getD [x]

/-- Append values to a body according to a signature; without one, it is guessed. -/
def append (v : Validator) (signature x : Value) : Writing Unit := do
  let values := arguments x
  let signature ← match signature with
    | .null => lift (.text <$> Value.guessAll v values)
    | s => pure s
  let g ← lift (Signature.ofValue v signature)
  let ts ← lift g.types
  writeFields v ts .body values

end Marshal

end DBusHost
