import DBusHost.Text.Printable

/-!
# Quoted text

Text is shown between quotes, with a backslash before the quote and the backslash
and with escapes for what is not printable.  The quote is the apostrophe, unless
the text holds apostrophes and no double quotes.
-/

namespace DBusHost.Text

/-- A number in lower-case hexadecimal with zeros in front up to `width` digits. -/
def hexPadded (width n : Nat) : List Char :=
  let digits := Nat.toDigits 16 n
  List.replicate (width - digits.length) '0' ++ digits

/-- The escape of a character by its code point, in two, four or eight digits. -/
def codeEscape (n : Nat) : List Char :=
  if n < 0x100 then '\\' :: 'x' :: hexPadded 2 n
  else if n < 0x10000 then '\\' :: 'u' :: hexPadded 4 n
  else '\\' :: 'U' :: hexPadded 8 n

/-- How one character is written between quotes: those that are `marked` after a
backslash, those that are `shown` as themselves. -/
def escaped (marked shown : Char → Bool) (c : Char) : List Char :=
  if marked c || c = '\\' then ['\\', c]
  else if c = '\t' then ['\\', 't']
  else if c = '\n' then ['\\', 'n']
  else if c = '\r' then ['\\', 'r']
  else if shown c then [c]
  else codeEscape c.toNat

/-- The quote that a text is written with. -/
def quoteFor (cs : List Char) : Char :=
  if cs.contains '\'' && !cs.contains '"' then '"' else '\''

/-- Put characters that have been written already between the quotes of a text. -/
def enclosed (cs written : List Char) : String :=
  String.ofList (quoteFor cs :: written ++ [quoteFor cs])

def quoted (s : String) : String :=
  let cs := s.toList
  enclosed cs (cs.flatMap (escaped (· = quoteFor cs) isPrintable))

def charOfByte (b : UInt8) : Char := Char.ofNat b.toNat

def isAsciiPrintable (c : Char) : Bool := 32 ≤ c.toNat && c.toNat < 127

/-- Quoted bytes, of which only the printable ones of ASCII are shown. -/
def quotedBytes (bs : List UInt8) : String :=
  let cs := bs.map charOfByte
  enclosed cs (cs.flatMap (escaped (· = quoteFor cs) isAsciiPrintable))

/-- Quoted bytes in which an apostrophe is marked even between double quotes. -/
def quotedBuffer (bs : List UInt8) : String :=
  let cs := bs.map charOfByte
  enclosed cs (cs.flatMap (escaped (· = '\'') isAsciiPrintable))

end DBusHost.Text
