import DBusHost.Value.Equality

/-!
# Keys

A value that cannot change has a key, and values that are the same have the same key.

The keys of numbers are numbers, and so is the key of a tuple whose items have numbers
as keys; such keys can be equal though the values are not the same.  The keys of other
values are told apart by what they are keys of.
-/

namespace DBusHost

namespace Value

/-- The key of a value that cannot change. -/
inductive Key where
  | number (i : Int)
  | bytes (bs : List UInt8)
  | tuple (keys : List Key)
  | null
  /-- A key shared with no other value. -/
  | unique

mutual

def Key.same : Key → Key → Bool
  | .number i, .number j => i == j
  | .bytes a, .bytes b => a == b
  | .tuple a, .tuple b => Key.sameList a b
  | .null, .null => true
  | _, _ => false
termination_by structural k => k

def Key.sameList : List Key → List Key → Bool
  | [], [] => true
  | a :: as, b :: bs => Key.same a b && Key.sameList as bs
  | _, _ => false
termination_by structural ks => ks

end

/-- The multipliers and the start value of the key of a tuple. -/
def tupleFactors : UInt64 × UInt64 × UInt64 :=
  (14029467366897019727, 11400714785074694791, 2870177450012600261)

/-- Turn the bits of a word to the left. -/
def rotateLeft (w : UInt64) (n : UInt64) : UInt64 := (w <<< n) ||| (w >>> (64 - n))

/-- The number of a tuple whose items have the given numbers as keys: the numbers are
mixed in one after the other, and their count is mixed in last. -/
def tupleNumber (parts : List Int) : Int :=
  let (inner, outer, start) := tupleFactors
  let mixed := parts.foldl
    (fun word i => rotateLeft (word + UInt64.ofInt i * inner) 31 * outer) start
  let word := mixed + (UInt64.ofNat parts.length ^^^ (start ^^^ 3527539))
  let i := word.toInt64.toInt
  if i = -1 then 1546275796 else i

namespace Key

def number? : Key → Option Int
  | number i => some i
  | bytes _ | tuple _ | null | unique => none

/-- The key of a tuple whose items have the given keys. -/
def ofParts (keys : List Key) : Key :=
  match keys.mapM number? with
  | some parts => number (tupleNumber parts)
  | none => tuple keys

end Key

/-- Numbers are keyed by their residue modulo this prime. -/
def keyModulus : Nat := (1 <<< 61) - 1

/-- The key of an integer's residue: the sign is kept, and `-1` is not a key. -/
def signedKey (negative : Bool) (residue : Nat) : Key :=
  let i : Int := if negative then -(residue : Int) else residue
  .number (if i = -1 then -2 else i)

/-- The key of a number.  Two to the power of 61 is one modulo the prime, so a
division by a power of two is a multiplication by another one. -/
def numericKey : Numeric → Key
  | .finite d =>
    signedKey (d.num < 0)
      ((d.num.natAbs % keyModulus) <<< (60 * d.shift % 61) % keyModulus)
  | .infinite negative => .number (if negative then -314159 else 314159)
  | .nan => .unique

/-- The key of stored bytes; no bytes have the key of zero. -/
def bytesKey (bs : List UInt8) : Key :=
  if bs.isEmpty then .number 0 else .bytes bs

mutual

/-- The key of a value, if it cannot change. -/
def key? : Value → Option Key
  | null => some .null
  | bool b => some (numericKey (.finite (.ofInt b.toInt)))
  | int i => some (numericKey (.finite (.ofInt i)))
  | descriptor i => some (numericKey (.finite (.ofInt i)))
  | double x => some (numericKey (.ofDouble x))
  | text s => some (bytesKey (Text.stored s))
  | path s => some (bytesKey (Text.stored s))
  | signature g => some (bytesKey (Text.stored g.text))
  | bytes bs => some (bytesKey bs)
  | tuple xs => (keys? xs).map .ofParts
  | struct xs _ => (keys? xs).map .ofParts
  | object _ => some .unique
  | buffer _ | list _ | map _ | array .. | dictionary .. => none
termination_by structural v => v

/-- The keys of values, if none of them can change. -/
def keys? : List Value → Option (List Key)
  | [] => some []
  | x :: xs => match key? x, keys? xs with
    | some k, some ks => some (k :: ks)
    | _, _ => none
termination_by structural xs => xs

end

def isKeyable (v : Value) : Bool := v.key?.isSome

end Value

end DBusHost
