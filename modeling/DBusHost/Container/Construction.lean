import DBusHost.Container.Entries
import DBusHost.Value.Guess
import DBusHost.Value.Order

/-!
# Making typed containers

Arrays and dictionaries take up to three arguments: the contents, the signature and
the variant level.  The level is fixed first and counts only if it is given by name;
the signature is normalised before any contents are taken.  A struct takes exactly
one positional argument and the two others by name.  No argument can be given under
the name of the parameter that stands for the class.

Normalising keeps a missing signature and an accepted one; everything else has to
pass as a new signature.
-/

namespace DBusHost

inductive ContainerClass where
  | array | dictionary | struct
  deriving DecidableEq, Repr

def ContainerClass.name : ContainerClass → String
  | array => "Array"
  | dictionary => "Dictionary"
  | struct => "Struct"

/-- The arguments of a call, by position and by name. -/
structure Arguments where
  positional : List Value
  named : List (String × Value)

namespace Arguments

def named? (a : Arguments) (name : String) : Option Value := a.named.lookup name

def get? (a : Arguments) (position : Nat) (name : String) : Option Value :=
  (a.positional[position]?).or (a.named? name)

/-- The arguments suit the parameters: there are not too many, every name is known,
and none is given twice. -/
def fits (a : Arguments) (parameters : List String) : Bool :=
  a.positional.length ≤ parameters.length &&
    a.named.all fun p => (parameters.drop a.positional.length).contains p.1

end Arguments

def Level.ofValue : Value → Except Fault Level
  | .bool b => .ok (.flag b)
  | .int i => if i < 0 then .error .levelNegative else .ok (.count i.toNat)
  | .descriptor i => if i < 0 then .error .levelNegative else .ok (.descriptor i.toNat)
  | v => .error (.levelNotInteger v.kindName)

def levelParameter : String := "variant_level"

def signatureParameter : String := "signature"

/-- The parameter that stands for the class of a container. -/
def classParameter : String := "celf"

def Arguments.level (a : Arguments) : Except Fault Level :=
  Level.ofValue ((a.named? levelParameter).getD (.int 0))

def normalSignature (v : Validator) : Value → Except Fault (Option Signature)
  | .null => .ok none
  | x => some <$> Signature.ofValue v x

def ContainerClass.parameters : ContainerClass → List String
  | array => ["iterable", signatureParameter, levelParameter]
  | dictionary => ["mapping_or_iterable", signatureParameter, levelParameter]
  | struct => []

inductive Contents where
  | array (items : List Value)
  | dictionary (entries : List (Value × Value))
  | struct (items : List Value)

namespace Contents

def containerClass : Contents → ContainerClass
  | array _ => .array
  | dictionary _ => .dictionary
  | struct _ => .struct

def toValue (c : Contents) (t : Tag) : Value :=
  match c with
  | array xs => .array xs t
  | dictionary es => .dictionary es t
  | struct xs => .struct xs t

end Contents

/-- What the arguments of an array or a dictionary say: the source of the contents
and the normalised signature. -/
def Arguments.filling (v : Validator) (c : ContainerClass) (a : Arguments) :
    Except Fault (Value × Option Signature) :=
  if a.fits c.parameters then do
    let signature ← normalSignature v ((a.get? 1 signatureParameter).getD .null)
    return ((a.get? 0 (c.parameters.headD "")).getD (.tuple []), signature)
  else .error .wrongKind

/-- The items that an iteration over the source gives. -/
def itemsOfSource (source : Value) : Except Fault (List Value) :=
  match source.elements? with
  | some xs => .ok xs
  | none => .error .wrongKind

/-- Make the contents and the tag of a container.  `maker` is the name under which
faults are reported. -/
def makeContents (v : Validator) (c : ContainerClass) (maker : String) (a : Arguments) :
    Except Fault (Contents × Tag) :=
  if (a.named? classParameter).isSome then .error .wrongKind
  else match c with
  | .array => do
    let level ← a.level
    let (source, signature) ← a.filling v .array
    return (.array (← itemsOfSource source), ⟨signature, level⟩)
  | .dictionary => do
    let level ← a.level
    let (source, signature) ← a.filling v .dictionary
    return (.dictionary (← Entries.ofSource source), ⟨signature, level⟩)
  | .struct =>
    match a.positional with
    | [source] => do
      let unknown := (a.named.map Prod.fst).filter fun n =>
        n != signatureParameter && n != levelParameter
      if !unknown.isEmpty then
        throw (.structKeywords maker (unknown.mergeSort fun s t => !Value.textLess t s))
      let level ← a.level
      let signature ← normalSignature v ((a.named? signatureParameter).getD .null)
      return (.struct (← itemsOfSource source), ⟨signature, level⟩)
    | _ => .error (.structArity maker)

def makeContainer (v : Validator) (c : ContainerClass) (a : Arguments) : Except Fault Value := do
  let (contents, tag) ← makeContents v c c.name a
  return contents.toValue tag

end DBusHost
