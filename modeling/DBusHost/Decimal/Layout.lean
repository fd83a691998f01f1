import DBusHost.Decimal.Shortest

/-!
# The text of a double

Which digits are written is decided in `Decimal.Shortest`; how they are laid out
is decided here, by one record of the format's choices.
-/

namespace DBusHost.Decimal

/-- The choices of a floating-point text format. -/
structure Layout where
  /-- The least decimal exponent that is written positionally. -/
  positionalFrom : Int
  /-- The first decimal exponent that is written with an exponent part again. -/
  positionalBelow : Int
  /-- What follows the digits of a whole number written positionally. -/
  wholeSuffix : String
  /-- The mark before an exponent. -/
  exponentMark : String
  /-- The least number of digits of an exponent. -/
  exponentWidth : Nat
  infinity : String
  nan : String

/-- Doubles are written positionally from `0.0001` up to below `10 ^ 16`, a whole
number ends in `.0`, and an exponent has a sign and at least two digits. -/
def Layout.standard : Layout where
  positionalFrom := -4
  positionalBelow := 16
  wholeSuffix := ".0"
  exponentMark := "e"
  exponentWidth := 2
  infinity := "inf"
  nan := "nan"

/-- A natural number in decimal, with zeros in front up to the given width. -/
def padded (width n : Nat) : String :=
  let digits := Nat.toDigits 10 n
  String.ofList (List.replicate (width - digits.length) '0' ++ digits)

/-- Lay out the digits `ds` whose first digit counts `10 ^ exponent`. -/
def Layout.place (f : Layout) (ds : List Char) (exponent : Int) : String :=
  if f.positionalFrom ≤ exponent ∧ exponent < f.positionalBelow then
    if exponent < 0 then
      "0." ++ String.ofList (List.replicate ((-exponent).toNat - 1) '0' ++ ds)
    else
      let whole := exponent.toNat + 1
      if ds.length ≤ whole then
        String.ofList (ds ++ List.replicate (whole - ds.length) '0') ++ f.wholeSuffix
      else
        String.ofList (ds.take whole) ++ "." ++ String.ofList (ds.drop whole)
  else
    let mantissa := match ds with
      | [] => "0"
      | [d] => String.ofList [d]
      | d :: rest => String.ofList (d :: '.' :: rest)
    let sign := if exponent < 0 then "-" else "+"
    mantissa ++ f.exponentMark ++ sign ++ padded f.exponentWidth exponent.natAbs

def Layout.write (f : Layout) (x : Binary64) : String :=
  if x.isNaN then f.nan
  else
    let sign := if x.negative then "-" else ""
    if x.isInfinite then sign ++ f.infinity
    else if x.significand = 0 then sign ++ f.place ['0'] 0
    else
      let s := shortest x.significand x.scale
      let ds := Nat.toDigits 10 s.digits
      sign ++ f.place ds (s.exponent + ds.length - 1)

end DBusHost.Decimal
