import DBusHost.Binary64

/-!
# Reading the text of a number

A number is written with an optional sign, digits with at most one point among
them, and an optional exponent; infinities and NaN have names.  An underscore may
stand between two digits, and blanks may surround the whole.  The digits of every
script are accepted in text, only those of ASCII in bytes.

`Literal.parse?` reads the grammar and `Literal.toDouble` gives the nearest double.
-/

namespace DBusHost.Text

/-- The blanks of ASCII: tab, line feed, vertical tab, form feed, carriage return
and space. -/
def isAsciiBlank (c : Char) : Bool :=
  c == ' ' || (9 ≤ c.toNat && c.toNat ≤ 13)

/-- The blanks beyond ASCII. -/
def isWideBlank (c : Char) : Bool :=
  let n := c.toNat
  n == 0x85 || n == 0xa0 || n == 0x1680 || (0x2000 ≤ n && n ≤ 0x200a) ||
    n == 0x2028 || n == 0x2029 || n == 0x202f || n == 0x205f || n == 0x3000

/-- Remove the ASCII blanks at both ends. -/
def trimBlanks (cs : List Char) : List Char :=
  ((cs.dropWhile isAsciiBlank).reverse.dropWhile isAsciiBlank).reverse

/-- The code points of all characters with the decimal digit value zero.  The digits of a
script are ten consecutive code points. -/
def digitBlocks : List Nat :=
  [
   0x30, 0x660, 0x6f0, 0x7c0, 0x966, 0x9e6, 0xa66, 0xae6, 0xb66,
   0xbe6, 0xc66, 0xce6, 0xd66, 0xde6, 0xe50, 0xed0, 0xf20, 0x1040,
   0x1090, 0x17e0, 0x1810, 0x1946, 0x19d0, 0x1a80, 0x1a90, 0x1b50, 0x1bb0,
   0x1c40, 0x1c50, 0xa620, 0xa8d0, 0xa900, 0xa9d0, 0xa9f0, 0xaa50, 0xabf0,
   0xff10, 0x104a0, 0x10d30, 0x11066, 0x110f0, 0x11136, 0x111d0, 0x112f0, 0x11450,
   0x114d0, 0x11650, 0x116c0, 0x11730, 0x118e0, 0x11950, 0x11c50, 0x11d50, 0x11da0,
   0x16a60, 0x16ac0, 0x16b50, 0x1d7ce, 0x1d7d8, 0x1d7e2, 0x1d7ec, 0x1d7f6, 0x1e140,
   0x1e2f0, 0x1e950, 0x1fbf0
  ]

def digitValue? (c : Char) : Option Nat :=
  (digitBlocks.find? fun z => z ≤ c.toNat && c.toNat < z + 10).map fun z => c.toNat - z

end DBusHost.Text

namespace DBusHost.Decimal

/-- What a number's text says. -/
inductive Literal where
  | nan
  | infinity (negative : Bool)
  /-- The number `digits * 10 ^ exponent`, with a sign. -/
  | finite (negative : Bool) (digits : Nat) (exponent : Int)
  deriving Repr

namespace Literal

def asciiDigit? (c : Char) : Option Nat :=
  if '0' ≤ c ∧ c ≤ '9' then some (c.toNat - '0'.toNat) else none

def isAsciiDigit (c : Char) : Bool := (asciiDigit? c).isSome

/-- The natural number that a run of ASCII digits denotes. -/
def natOfDigits (cs : List Char) : Nat :=
  cs.foldl (fun n c => 10 * n + (c.toNat - '0'.toNat)) 0

/-- Remove the underscores; each has to stand between two digits.  `before` is the
character that came last. -/
def dropUnderscores? (before : Char) : List Char → Option (List Char)
  | [] => if before = '_' then none else some []
  | c :: rest =>
    if c = '_' then
      if isAsciiDigit before then dropUnderscores? c rest else none
    else if before = '_' ∧ !isAsciiDigit c then none
    else (dropUnderscores? c rest).map (c :: ·)

def splitSign : List Char → Bool × List Char
  | '-' :: rest => (true, rest)
  | '+' :: rest => (false, rest)
  | cs => (false, cs)

/-- Read an exponent part, which has to be all that is left. -/
def exponent? : List Char → Option Int
  | [] => some 0
  | c :: rest =>
    if c = 'e' ∨ c = 'E' then
      let (negative, ds) := splitSign rest
      if ds.isEmpty || !ds.all isAsciiDigit then none
      else some (if negative then -(natOfDigits ds : Int) else natOfDigits ds)
    else none

/-- Read digits with at most one point among them and an exponent part. -/
def finite? (negative : Bool) (cs : List Char) : Option Literal :=
  let whole := cs.takeWhile isAsciiDigit
  let rest := cs.dropWhile isAsciiDigit
  let (part, rest) := match rest with
    | '.' :: r => (r.takeWhile isAsciiDigit, r.dropWhile isAsciiDigit)
    | r => ([], r)
  if whole.isEmpty && part.isEmpty then none
  else (exponent? rest).map fun e =>
    finite negative (natOfDigits (whole ++ part)) (e - part.length)

/-- Read a number from ASCII characters. -/
def parse? (cs : List Char) : Option Literal :=
  match dropUnderscores? ' ' (Text.trimBlanks cs) with
  | none => none
  | some cs =>
    let (negative, rest) := splitSign cs
    let name := String.ofList (rest.map Char.toLower)
    if name = "nan" then some nan
    else if name = "inf" ∨ name = "infinity" then some (infinity negative)
    else finite? negative rest

/-- Read a number from text: digits of other scripts count as the ASCII digits of
the same value, blanks of all scripts as spaces. -/
def parseText? (s : String) : Option Literal :=
  let cs := s.toList
  if cs.all (·.toNat < 128) then parse? cs
  else parse? (cs.map fun c =>
    if c.toNat < 127 then c
    else if Text.isWideBlank c then ' '
    else match Text.digitValue? c with
      | some d => Char.ofNat ('0'.toNat + d)
      | none => '?')

/-- The double nearest to the number.  Beyond the largest double it is an infinity;
exponents so large that the power need not be computed are decided by the count of
digits alone. -/
def toDouble : Literal → Binary64
  | nan => Binary64.nan
  | infinity negative => Binary64.infinity negative
  | finite negative digits exponent =>
    let size : Int := (Nat.toDigits 10 digits).length + exponent
    if digits = 0 ∨ size < -400 then Binary64.zero negative
    else if 400 < size then Binary64.infinity negative
    else
      Binary64.ofRatio negative (digits * Nat.pow 10 exponent.toNat) (Nat.pow 10 (-exponent).toNat)

end Literal

end DBusHost.Decimal
