import DBusHost.Fault
import DBusHost.Value.Equality

/-!
# Positions in a list

Positions count from the front, negative ones from the back.  A single position has
to exist; the bounds of a slice are cut down to the list.
-/

namespace DBusHost.Sequence

/-- The greatest position that can be asked for at all. -/
def greatestPosition : Int := IntWindow.greatest ⟨true, 64⟩

def position (v : Value) : Except Fault Int :=
  match v.integer? with
  | some i => .ok i
  | none => .error .wrongKind

def isReachable (i : Int) : Bool := -greatestPosition - 1 ≤ i && i ≤ greatestPosition

/-- A value as a position that has to be within reach. -/
def reachable (v : Value) : Except Fault Int := do
  let i ← position v
  if isReachable i then return i else throw .tooLarge

/-- The index of an existing position in a list of `length` items. -/
def index? (length : Nat) (i : Int) : Option Nat :=
  let j := if i < 0 then i + length else i
  if 0 ≤ j ∧ j < length then some j.toNat else none

/-- The index of a bound of a slice of a list of `length` items. -/
def bound (length : Nat) (i : Int) : Nat :=
  min length (if i < 0 then i + length else i).toNat

/-- A value as a bound of a slice, which may be left out. -/
def sliceBound (length default : Nat) : Value → Except Fault Nat
  | .null => .ok default
  | v => do return bound length (← position v)

def get (xs : List Value) (k : Value) : Except Fault Value := do
  let i ← position k
  match (index? xs.length i).bind fun j => xs[j]? with
  | some x => return x
  | none => throw .noSuchIndex

def slice (xs : List Value) (a b : Value) : Except Fault (List Value) := do
  let low ← sliceBound xs.length 0 a
  let high ← sliceBound xs.length xs.length b
  return (xs.take high).drop low

def set (xs : List Value) (k v : Value) : Except Fault (List Value) := do
  let i ← position k
  match index? xs.length i with
  | some j => return xs.set j v
  | none => throw .noSuchIndex

/-- Why no position of an immutable list can be changed: one out of reach does not
exist, and nothing can be put at any other. -/
def refusal (k : Value) : Fault :=
  match k.integer? with
  | some i => if isReachable i then .wrongKind else .noSuchIndex
  | none => .wrongKind

def erase (xs : List Value) (k : Value) : Except Fault (List Value) := do
  let i ← position k
  match index? xs.length i with
  | some j => return xs.eraseIdx j
  | none => throw .noSuchIndex

def contains (xs : List Value) (v : Value) : Bool := xs.any fun x => x.same v

def count (xs : List Value) (v : Value) : Nat := xs.countP fun x => x.same v

/-- The index of the first item that is the same as `v`, between two bounds. -/
def find (xs : List Value) (v : Value) (bounds : List Value) : Except Fault Nat := do
  let (low, high) ← match bounds with
    | [] => pure (0, xs.length)
    | [a] => do pure (bound xs.length (← position a), xs.length)
    | [a, b] => do pure (bound xs.length (← position a), bound xs.length (← position b))
    | _ => throw .wrongKind
  match ((xs.take high).drop low).findIdx? fun x => x.same v with
  | some i => return low + i
  | none => throw .badValue

/-- The items and further ones, if these can be had. -/
def plus (xs : List Value) (more : Option (List Value)) : Except Fault (List Value) :=
  match more with
  | some ys => .ok (xs ++ ys)
  | none => .error .wrongKind

/-- The greatest number of items in a list, whose addresses of eight bytes each have to
be within reach. -/
def greatestLength : Int := greatestPosition / 8

def times (xs : List Value) (n : Value) : Except Fault (List Value) := do
  let n ← reachable n
  if xs.isEmpty then return []
  else if greatestLength < xs.length * n.toNat then throw .outOfMemory
  else return (List.replicate n.toNat xs).flatten

end DBusHost.Sequence
