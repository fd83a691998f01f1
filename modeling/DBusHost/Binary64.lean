/-!
# Doubles as exact numbers

A D-Bus double is an IEEE 754 binary64 word.  This module reads such a word as
the exact number it denotes and rounds exact numbers back to words, all in
integer arithmetic, so that every statement about doubles is a statement about
integers.

The two directions are `Binary64.dyadic?`, which gives the dyadic fraction a
finite word denotes, and `Binary64.ofRatio`, which gives the word nearest to a
ratio of natural numbers, ties going to the even significand.
-/

namespace DBusHost

/-- Integer division rounded to the nearest quotient, a tie going to the even one. -/
def roundDiv (num den : Nat) : Nat :=
  let q := num / den
  let r := num % den
  if 2 * r < den then q
  else if den < 2 * r then q + 1
  else if q % 2 = 0 then q else q + 1

/-- The dyadic fraction `num / 2 ^ shift`. -/
structure Dyadic where
  num : Int
  shift : Nat
  deriving Repr

namespace Dyadic

def ofInt (i : Int) : Dyadic := ⟨i, 0⟩

/-- Two fractions denote the same number. -/
def same (a b : Dyadic) : Bool :=
  a.num <<< b.shift == b.num <<< a.shift

/-- The first fraction denotes the smaller number. -/
def less (a b : Dyadic) : Bool :=
  a.num <<< b.shift < b.num <<< a.shift

/-- The integer nearest to the fraction, a tie going to the even one. -/
def round (a : Dyadic) : Int :=
  let magnitude : Int := roundDiv a.num.natAbs (1 <<< a.shift)
  if a.num < 0 then -magnitude else magnitude

@[simp] theorem round_ofInt (i : Int) : (ofInt i).round = i := by
  have hq : roundDiv i.natAbs 1 = i.natAbs := by simp [roundDiv, Nat.mod_one]
  simp only [round, ofInt, Nat.shiftLeft_zero, hq]
  split <;> omega

end Dyadic

structure Binary64 where
  bits : UInt64
  deriving DecidableEq, Repr

namespace Binary64

/-- The word as a natural number below `2 ^ 64`. -/
def word (x : Binary64) : Nat := x.bits.toNat

/-- What the sign bit counts for. -/
def signBit : Nat := 1 <<< 63

/-- What the leading bit of a significand counts for, which most words leave out. -/
def leadingBit : Nat := 1 <<< 52

def negative (x : Binary64) : Bool := x.word / signBit % 2 == 1

/-- The eleven exponent bits. -/
def exponentField (x : Binary64) : Nat := x.word / leadingBit % 2048

/-- The fifty-two fraction bits. -/
def fraction (x : Binary64) : Nat := x.word % leadingBit

def isNaN (x : Binary64) : Bool := x.exponentField == 2047 && x.fraction != 0

def isInfinite (x : Binary64) : Bool := x.exponentField == 2047 && x.fraction == 0

def isFinite (x : Binary64) : Bool := x.exponentField != 2047

/-- The integer significand of a finite word. -/
def significand (x : Binary64) : Nat :=
  if x.exponentField = 0 then x.fraction else leadingBit + x.fraction

/-- The power of two that scales the significand of a finite word. -/
def scale (x : Binary64) : Int :=
  if x.exponentField = 0 then -1074 else (x.exponentField : Int) - 1075

def pack (negative : Bool) (exponentField fraction : Nat) : Binary64 :=
  ⟨UInt64.ofNat ((if negative then signBit else 0) + exponentField * leadingBit + fraction)⟩

def zero (negative : Bool) : Binary64 := pack negative 0 0

def infinity (negative : Bool) : Binary64 := pack negative 2047 0

/-- The one NaN that this library writes. -/
def nan : Binary64 := pack false 2047 (leadingBit / 2)

/-- Every NaN is written the same way; all other words are unchanged. -/
def canonical (x : Binary64) : Binary64 := if x.isNaN then nan else x

/-- The number that a finite word denotes. -/
def dyadic? (x : Binary64) : Option Dyadic :=
  if x.isFinite then
    let m : Int := if x.negative then -(x.significand : Int) else x.significand
    if x.scale < 0 then some ⟨m, (-x.scale).toNat⟩
    else some ⟨m <<< x.scale.toNat, 0⟩
  else none

/-- The word whose significand `m` counts units of `2 ^ q`, for `m ≤ 2 ^ 53` and
`-1074 ≤ q`; a number too large for the format becomes an infinity. -/
def ofScaled (negative : Bool) (m : Nat) (q : Int) : Binary64 :=
  let (m, q) := if m = 2 * leadingBit then (leadingBit, q + 1) else (m, q)
  if 971 < q then infinity negative
  else if m < leadingBit then pack negative 0 m
  else pack negative (q + 1075).toNat (m - leadingBit)

/-- The power of two just at or below the ratio `num / den`. -/
def binaryExponent (num den : Nat) : Int :=
  let guess : Int := (Nat.log2 num : Int) - Nat.log2 den
  let reaches : Bool :=
    if 0 ≤ guess then den <<< guess.toNat ≤ num else den ≤ num <<< (-guess).toNat
  if reaches then guess else guess - 1

/-- The word nearest to `num / den`, a tie going to the even significand. -/
def ofRatio (negative : Bool) (num den : Nat) : Binary64 :=
  if num = 0 then zero negative
  else
    let q := max (binaryExponent num den - 52) (-1074)
    let m := if 0 ≤ q then roundDiv num (den <<< q.toNat)
      else roundDiv (num <<< (-q).toNat) den
    ofScaled negative m q

/-- The word nearest to an integer, unless the integer is too large for the format. -/
def ofInt? (i : Int) : Option Binary64 :=
  let x := ofRatio (i < 0) i.natAbs 1
  if x.isInfinite then none else some x

/-- The word nearest to `n` times the number of a word. -/
def timesNat (x : Binary64) (n : Nat) : Binary64 :=
  match x.dyadic? with
  | some d => ofRatio x.negative (d.num.natAbs * n) (1 <<< d.shift)
  | none => if x.isNaN then nan else if n = 0 then nan else x

/-- The word nearest to one more than the number of a word. -/
def plusOne (x : Binary64) : Binary64 :=
  match x.dyadic? with
  | some d =>
    let den := 1 <<< d.shift
    let num := d.num + (den : Nat)
    ofRatio (num < 0) num.natAbs den
  | none => x

/-- Equality of the numbers: a NaN equals nothing and the two zeros are equal. -/
def same (x y : Binary64) : Bool :=
  match x.dyadic?, y.dyadic? with
  | some a, some b => a.same b
  | none, none => !x.isNaN && !y.isNaN && x.negative == y.negative
  | _, _ => false

/-- Order of the numbers: a NaN is not less than anything, nor anything less than it. -/
def less (x y : Binary64) : Bool :=
  if x.isNaN || y.isNaN then false
  else match x.dyadic?, y.dyadic? with
    | some a, some b => a.less b
    | some _, none => !y.negative
    | none, some _ => x.negative
    | none, none => x.negative && !y.negative

/-- Whether the number is not zero; a NaN counts as nonzero. -/
def isNonzero (x : Binary64) : Bool := x.word % signBit != 0

end Binary64

end DBusHost
