import DBusHost.Decimal.Literal
import DBusHost.Fault
import DBusHost.Text.Quoted
import DBusHost.Value.Basic

/-!
# Values as truth values and numbers

Every value counts as true or false, some can be read as a double, and the kinds
that are integers can be counted with.
-/

namespace DBusHost.Value

/-- Whether a value counts as true: zero, nothing and the empty count as false. -/
def truth : Value → Bool
  | null => false
  | bool b => b
  | int i => i != 0
  | descriptor i => i != 0
  | double x => x.isNonzero
  | text s => !s.isEmpty
  | path s => !s.isEmpty
  | signature g => !g.text.isEmpty
  | bytes bs => !bs.isEmpty
  | buffer bs => !bs.isEmpty
  | list xs => !xs.isEmpty
  | tuple xs => !xs.isEmpty
  | map es => !es.isEmpty
  | array xs _ => !xs.isEmpty
  | dictionary es _ => !es.isEmpty
  | struct xs _ => !xs.isEmpty
  | object _ => true

/-- A value as a double: a number is rounded to the nearest one, a text is read. -/
def toDouble (v : Value) : Except Fault Binary64 :=
  match v with
  | double x => .ok x
  | _ =>
    match v.integer? with
    | some i => match Binary64.ofInt? i with
      | some x => .ok x
      | none => .error .tooLarge
    | none =>
      let literal? := match v.text?, v.bytes? with
        | some s, _ => some (Decimal.Literal.parseText? s)
        | none, some bs => some (Decimal.Literal.parse? (bs.map Text.charOfByte))
        | none, none => none
      match literal? with
      | none => .error .wrongKind
      | some none => .error .badValue
      | some (some l) => .ok l.toDouble

/-- The level one above a given one, for values that can be counted with. -/
def levelAbove (v : Value) : Except Fault Value :=
  match v with
  | double x => .ok (double (x.plusOne))
  | _ => match v.integer? with
    | some i => .ok (int (i + 1))
    | none => .error .wrongKind

/-- The greatest exponent with a power of two among the integers.  An integer has at most
`2 ^ 61 - 7` digits of thirty bits, and a power takes up one of them and one more for
each thirty bits of the exponent, whole or in part. -/
def integerLimit : Nat := 30 * (IntWindow.patterns 61 - 8)

/-- The bounds of a window can be had that are two to the power of `exponent` away, in a
memory that has room for powers up to the one of `memory`. -/
def checkWidth (memory : Nat) (exponent : Int) : Except Fault Unit :=
  if exponent < 0 then .error .badValue
  else if integerLimit < exponent then .error .tooLarge
  else if memory < exponent then .error .outOfMemory
  else .ok ()

/-- The integer of a value, which has to lie in a window of the given width.  A window
needs a bit for the sign and cannot be narrower than nothing.  There is room for all
integers if nothing is said about the memory. -/
def checkWindow (signed : Bool) (bits : Int) (v : Value) (memory : Nat := integerLimit) :
    Except Fault Int :=
  match v.integer? with
  | none => .error (.integerExpected v.kindName)
  | some i => do
    checkWidth memory (if signed then bits - 1 else bits)
    if (IntWindow.mk signed bits.toNat).fits i then return i
    else throw (.outOfWindow i signed bits)

/-- The integer of a value, which has to lie in the window of an integer type. -/
def checkInteger (w : IntWindow) (v : Value) : Except Fault Int :=
  checkWindow w.signed w.bits v

/-- The integer of a value, checked against the type that a character names. -/
def checkTyped (c : Char) (v : Value) : Except Fault Int :=
  match (BasicType.ofChar? c).bind BasicType.window? with
  | some w => checkInteger w v
  | none => .error .noSuchKey

end DBusHost.Value
