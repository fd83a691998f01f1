import DBusHost.Text.Quoted
import DBusHost.Value.Printer

/-!
# The signature of a value

`Value.guess` names the one complete type that a value is marshalled as if nobody
says otherwise.  A container with a signature of its own is trusted, any other
collection is judged by its first item or entry, and a container that is wrapped in
variants is a variant.
-/

namespace DBusHost

namespace Signature

/-- A value as a signature: a signature is kept, and text and bytes are checked. -/
def ofValue (v : Validator) : Value → Except Fault Signature
  | .signature g => .ok g
  | .text s => ofText v s
  | .path s => check v (Value.path s).render s
  | .bytes bs => ofBytes bs
  | .buffer bs => ofBytes bs
  | x => .error (.signatureTextExpected x.kindName)
where
  /-- Bytes have to be ASCII. -/
  ofBytes (bs : List UInt8) : Except Fault Signature :=
    if bs.all (· < 128) then ofText v (String.ofList (bs.map Text.charOfByte))
    else .error .undecodable

end Signature

namespace Value

/-- The signature of a value at a level, given its signature without the level. -/
def guessAt (v : Validator) (level : Nat) (plain : Except Fault String) :
    Except Fault Signature :=
  if 0 < level then Signature.ofText v "v"
  else match plain with
    | .ok s => Signature.ofText v s
    | .error f => .error f

/-- The text that stands for a value without items, if it can be marshalled. -/
def guessLeaf : Value → Except Fault String
  | bool _ => .ok "b"
  | descriptor _ => .ok "h"
  | int _ => .ok "i"
  | double _ => .ok "d"
  | path _ => .ok "o"
  | signature _ => .ok "g"
  | text _ => .ok "s"
  | bytes _ | buffer _ => .ok "ay"
  | x => .error (.unguessable x.kindName)

mutual

/-- The signature text of a value whose variants are left out of account. -/
def guessPlain (v : Validator) : Value → Except Fault String
  | tuple xs => guessFields v xs
  | struct xs t => match t.signature with
    | some g => .ok ("(" ++ g.text ++ ")")
    | none => guessFields v xs
  | list xs => guessElement v xs
  | array xs t => match t.signature with
    | some g => .ok ("a" ++ g.text)
    | none => guessElement v xs
  | map es => guessEntry v es
  | dictionary es t => match t.signature with
    | some g => .ok ("a\x7b" ++ g.text ++ "\x7d")
    | none => guessEntry v es
  | x => guessLeaf x
termination_by structural x => x

/-- The signature text of a struct with the given fields. -/
def guessFields (v : Validator) : List Value → Except Fault String
  | [] => .error .emptyStruct
  | x :: xs => do
    let first ← guessAt v x.level (guessPlain v x)
    let rest ← guessEach v xs
    return "(" ++ first.text ++ rest ++ ")"
termination_by structural xs => xs

/-- The signature texts of values, one after the other. -/
def guessEach (v : Validator) : List Value → Except Fault String
  | [] => .ok ""
  | x :: xs => do
    let first ← guessAt v x.level (guessPlain v x)
    let rest ← guessEach v xs
    return first.text ++ rest
termination_by structural xs => xs

/-- The signature text of an array whose first element is given. -/
def guessElement (v : Validator) : List Value → Except Fault String
  | [] => .error .emptyList
  | x :: _ => do
    let first ← guessAt v x.level (guessPlain v x)
    return "a" ++ first.text
termination_by structural xs => xs

/-- The signature text of an array of dict entries whose first entry is given. -/
def guessEntry (v : Validator) : List (Value × Value) → Except Fault String
  | [] => .error .emptyMap
  | (k, x) :: _ => do
    let key ← guessAt v k.level (guessPlain v k)
    let value ← guessAt v x.level (guessPlain v x)
    return "a\x7b" ++ key.text ++ value.text ++ "\x7d"
termination_by structural es => es

end

def guess (v : Validator) (x : Value) : Except Fault Signature :=
  guessAt v x.level (guessPlain v x)

/-- The signature text of a list of values. -/
def guessAll (v : Validator) (xs : List Value) : Except Fault String := guessEach v xs

end Value

end DBusHost
