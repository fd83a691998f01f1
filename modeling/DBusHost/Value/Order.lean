import DBusHost.Value.Equality

/-!
# Order

Some values are ordered: numbers by their exact value, texts by their code points, bytes
by their numbers, and lists of either sort by their first items that are not the same.
A NaN is neither less than anything nor at most anything.

A `Comparison` is one of the six questions that can be asked of two values.
-/

namespace DBusHost

/-- A question that can be asked of two values. -/
inductive Comparison where
  | same | different | less | atMost | greater | atLeast
  deriving DecidableEq, Repr

namespace Value

/-- Two texts in code point order. -/
def textLess (s t : String) : Bool := s.toList.map Char.toNat < t.toList.map Char.toNat

/-- Whether the first of two values without items is less than the second, or also the
same if `orSame` holds, if the two are ordered. -/
def orderedLeaf? (orSame : Bool) (v w : Value) : Option Bool :=
  match v.numeric?, w.numeric? with
  | some a, some b => some (a.less b || (orSame && a.same b))
  | _, _ =>
    match v.text?, w.text? with
    | some s, some t => some (textLess s t || (orSame && s == t))
    | _, _ =>
      match v.bytes?, w.bytes? with
      | some a, some b => some (a < b || (orSame && a == b))
      | _, _ => none

mutual

/-- Whether the first value is less than the second, or also the same if `orSame` holds,
if the two are ordered. -/
def ordered? (orSame : Bool) : Value → Value → Option Bool
  | list xs, w => match w.listItems? with
    | some ys => orderedItems? orSame xs ys
    | none => none
  | array xs _, w => match w.listItems? with
    | some ys => orderedItems? orSame xs ys
    | none => none
  | tuple xs, w => match w.tupleItems? with
    | some ys => orderedItems? orSame xs ys
    | none => none
  | struct xs _, w => match w.tupleItems? with
    | some ys => orderedItems? orSame xs ys
    | none => none
  | v, w => orderedLeaf? orSame v w
termination_by structural v => v

def orderedItems? (orSame : Bool) : List Value → List Value → Option Bool
  | [], [] => some orSame
  | [], _ :: _ => some true
  | _ :: _, [] => some false
  | x :: xs, y :: ys => if same x y then orderedItems? orSame xs ys else ordered? orSame x y
termination_by structural xs => xs

end

/-- The answer to a question, if the values can be compared so. -/
def compare? (v w : Value) : Comparison → Option Bool
  | .same => some (v.same w)
  | .different => some (!v.same w)
  | .less => ordered? false v w
  | .atMost => ordered? true v w
  | .greater => ordered? false w v
  | .atLeast => ordered? true w v

end Value

end DBusHost
