import DBusHost.Binary64

/-!
# The fewest digits that read back

A finite double stands for every real number that rounds to it.  Among the
decimals in that interval this module picks one with the fewest digits, and of
those the one nearest to the double's own number.

The interval is described by three integers over a common denominator, so the
search is exact: `Interval.contains` decides membership, and a grid of decimals
has a member inside exactly when one of the two neighbours of the double's
number on that grid is inside.
-/

namespace DBusHost.Decimal

/-- The decimal `digits * 10 ^ exponent`. -/
structure Scientific where
  digits : Nat
  exponent : Int
  deriving DecidableEq, Repr

/-- The reals that round to one positive double: from `low / den` to `high / den`
around `mid / den`, both ends belonging to it exactly if `closed`. -/
structure Interval where
  low : Nat
  mid : Nat
  high : Nat
  den : Nat
  closed : Bool

namespace Interval

/-- The interval of the positive double `m * 2 ^ q`.  Below a power of two the
doubles lie twice as close, so the lower half-gap is half as wide there. -/
def ofDouble (m : Nat) (q : Int) : Interval :=
  let narrow := m == Binary64.leadingBit && -1074 < q
  let low := if narrow then 4 * m - 1 else 4 * m - 2
  let unit := q - 2
  let scale := unit.toNat
  ⟨low <<< scale, (4 * m) <<< scale, (4 * m + 2) <<< scale, 1 <<< (-unit).toNat, m % 2 == 0⟩

def contains (I : Interval) (n d : Nat) : Bool :=
  let x := n * I.den
  if I.closed then I.low * d ≤ x && x ≤ I.high * d
  else I.low * d < x && x < I.high * d

end Interval

/-- The decimal `digits * 10 ^ exponent` as a ratio of natural numbers. -/
def Scientific.ratio (s : Scientific) : Nat × Nat :=
  (s.digits * Nat.pow 10 s.exponent.toNat, Nat.pow 10 (-s.exponent).toNat)

def Scientific.isIn (s : Scientific) (I : Interval) : Bool :=
  I.contains s.ratio.1 s.ratio.2

/-- How many digits a natural number has; zero has none. -/
def digitCount (n : Nat) : Nat :=
  if n = 0 then 0 else (Nat.toDigits 10 n).length

/-- The position of the decimal point of a positive ratio: the least `p` with
`num / den < 10 ^ p`.  Below one it is found by multiplying by ten, at most
`fuel` times. -/
def pointOfSmall (num den : Nat) : Nat → Int
  | 0 => 0
  | fuel + 1 => if den ≤ num * 10 then 0 else pointOfSmall (num * 10) den fuel - 1

/-- The position of the decimal point of a positive ratio. -/
def point (num den : Nat) : Int :=
  if den ≤ num then digitCount (num / den) else pointOfSmall num den (digitCount den)

/-- The decimal on the grid of `10 ^ exponent` that lies in the interval, if any:
one of the two neighbours of the middle, the nearer one if both do, and the even
one if they are equally near. -/
def onGrid? (I : Interval) (exponent : Int) : Option Scientific :=
  let num := I.mid * Nat.pow 10 (-exponent).toNat
  let den := I.den * Nat.pow 10 exponent.toNat
  let below : Scientific := ⟨num / den, exponent⟩
  let above : Scientific := ⟨num / den + 1, exponent⟩
  match below.isIn I, above.isIn I with
  | false, false => none
  | true, false => some below
  | false, true => some above
  | true, true => some ⟨roundDiv num den, exponent⟩

/-- Try the grids from the coarsest on, at most `fuel` of them. -/
def firstGrid (I : Interval) (exponent : Int) : Nat → Scientific
  | 0 => ⟨I.mid * Nat.pow 10 (-exponent).toNat / (I.den * Nat.pow 10 exponent.toNat), exponent⟩
  | fuel + 1 =>
    match onGrid? I exponent with
    | some s => s
    | none => firstGrid I (exponent - 1) fuel

/-- Drop trailing zero digits, at most `fuel` of them. -/
def trim (s : Scientific) : Nat → Scientific
  | 0 => s
  | fuel + 1 =>
    if s.digits % 10 = 0 ∧ s.digits ≠ 0 then
      trim ⟨s.digits / 10, s.exponent + 1⟩ fuel
    else s

/-- The shortest decimal that reads back as the positive double `m * 2 ^ q`.
Seventeen digits always suffice. -/
def shortest (m : Nat) (q : Int) : Scientific :=
  let I := Interval.ofDouble m q
  trim (firstGrid I (point I.mid I.den - 1) 17) 20

end DBusHost.Decimal
