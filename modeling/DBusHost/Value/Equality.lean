import DBusHost.Value.Basic

/-!
# Equality

Two values are the same if they denote the same thing, whatever kind they have:
numbers are compared as exact numbers, texts as texts, and a typed container is the
same as a plain collection with the same contents.  A NaN is the same as nothing.
-/

namespace DBusHost

/-- The exact content of a number. -/
inductive Numeric where
  | finite (d : Dyadic)
  | infinite (negative : Bool)
  | nan

namespace Numeric

/-- Two numbers are equal; a NaN equals nothing. -/
def same : Numeric → Numeric → Bool
  | finite a, finite b => a.same b
  | infinite m, infinite n => m == n
  | _, _ => false

/-- The first number is smaller. -/
def less : Numeric → Numeric → Bool
  | finite a, finite b => a.less b
  | finite _, infinite n => !n
  | infinite m, finite _ => m
  | infinite m, infinite n => m && !n
  | _, _ => false

/-- The exact content of a double. -/
def ofDouble (x : Binary64) : Numeric :=
  match x.dyadic? with
  | some d => finite d
  | none => if x.isNaN then nan else infinite x.negative

end Numeric

namespace Value

/-- The exact content of a number, for the kinds that are numbers. -/
def numeric? : Value → Option Numeric
  | bool b => some (.finite (.ofInt b.toInt))
  | int i => some (.finite (.ofInt i))
  | descriptor i => some (.finite (.ofInt i))
  | double x => some (.ofDouble x)
  | _ => none

/-- Two values without items are the same. -/
def sameLeaf (v w : Value) : Bool :=
  match v.numeric?, w.numeric? with
  | some a, some b => a.same b
  | _, _ =>
    match v.text?, w.text? with
    | some s, some t => s == t
    | _, _ =>
      match v.bytes?, w.bytes? with
      | some a, some b => a == b
      | _, _ => match v, w with
        | null, null => true
        | _, _ => false

mutual

/-- Two values are the same. -/
def same : Value → Value → Bool
  | list xs, w => match w.listItems? with
    | some ys => sameItems xs ys
    | none => false
  | array xs _, w => match w.listItems? with
    | some ys => sameItems xs ys
    | none => false
  | tuple xs, w => match w.tupleItems? with
    | some ys => sameItems xs ys
    | none => false
  | struct xs _, w => match w.tupleItems? with
    | some ys => sameItems xs ys
    | none => false
  | map es, w => match w.entries? with
    | some fs => es.length == fs.length && sameEntries es fs
    | none => false
  | dictionary es _, w => match w.entries? with
    | some fs => es.length == fs.length && sameEntries es fs
    | none => false
  | v, w => sameLeaf v w
termination_by structural v => v

/-- Two lists have the same items in the same order. -/
def sameItems : List Value → List Value → Bool
  | [], [] => true
  | x :: xs, y :: ys => same x y && sameItems xs ys
  | _, _ => false
termination_by structural xs => xs

/-- Every entry of the first map has an entry in the second one with the same key,
and that has the same value. -/
def sameEntries : List (Value × Value) → List (Value × Value) → Bool
  | [], _ => true
  | (k, v) :: es, fs =>
    (match fs.find? fun f => same k f.1 with
      | some f => same v f.2
      | none => false) && sameEntries es fs
termination_by structural es => es

end

end Value

end DBusHost
