import DBusHost.Container.Method
import DBusHost.Sorting.Basic

/-!
# Methods of lists

`callList` calls a method of a list: the answer and the items afterwards.  A method that
fails leaves the items as they were, except that a sort which stops at items without an
order leaves them as far sorted as it had come.
-/

namespace DBusHost

/-- The methods of a list beside those of every collection, by form. -/
def listMethods : List (MethodForm × List String) :=
  [(.builtin, ["append", "clear", "copy", "count", "extend", "index", "insert", "pop",
      "remove", "reverse", "sort", "__getitem__", "__reversed__"]),
    (.operator, ["__add__", "__contains__", "__delattr__", "__delitem__", "__iadd__",
      "__imul__", "__mul__", "__rmul__", "__setattr__", "__setitem__"]),
    (.bound, ["__init__"])]

def sortOrder (v w : Value) : Except Fault Bool :=
  match v.ordered? false w with
  | some b => .ok b
  | none => .error .wrongKind

def insertItem (xs : List Value) (k v : Value) : Except Fault (List Value) := do
  let j := Sequence.bound xs.length (← Sequence.reachable k)
  return xs.take j ++ v :: xs.drop j

/-- Take an item out of a list: the item and the remaining ones. -/
def popItem (xs : List Value) (k : Value) : Except Fault (Value × List Value) := do
  let i ← Sequence.reachable k
  match Sequence.index? xs.length i with
  | some j => return (xs[j]?.getD .null, xs.eraseIdx j)
  | none => throw .noSuchIndex

/-- Take the first item that is the same as a value out of a list. -/
def removeItem (xs : List Value) (v : Value) : Except Fault (List Value) :=
  match xs.findIdx? fun x => x.same v with
  | some i => .ok (xs.eraseIdx i)
  | none => .error .badValue

def keepItems (xs : List Value) (answer : Except Fault Value) :
    Except Fault Reply × List Value :=
  (.value <$> answer, xs)

/-- An answer that goes with new items, unless these could not be made. -/
def changeItems (xs : List Value) (reply : Reply) (items : Except Fault (List Value)) :
    Except Fault Reply × List Value :=
  match items with
  | .ok ys => (.ok reply, ys)
  | .error f => (.error f, xs)

/-- Call a method of a list that stands for an operator. -/
def callListOperator (xs : List Value) (name : String) (arguments : List Value) :
    Except Fault Reply × List Value :=
  match name, arguments with
  | "__len__", [] => keepItems xs (.ok (.int xs.length))
  | "__getitem__", [k] => keepItems xs (Sequence.get xs k)
  | "__setitem__", [k, v] => changeItems xs .done (Sequence.set xs k v)
  | "__delitem__", [k] => changeItems xs .done (Sequence.erase xs k)
  | "__contains__", [v] => keepItems xs (.ok (.bool (Sequence.contains xs v)))
  | "__add__", [v] => keepItems xs (.list <$> Sequence.plus xs v.listItems?)
  | "__iadd__", [v] => changeItems xs .itself (Sequence.plus xs v.elements?)
  | "__mul__", [n] => keepItems xs (.list <$> Sequence.times xs n)
  | "__rmul__", [n] => keepItems xs (.list <$> Sequence.times xs n)
  | "__imul__", [n] => changeItems xs .itself (Sequence.times xs n)
  | "__iter__", [] => (.ok (.object "list_iterator"), xs)
  | "__reversed__", [] => (.ok (.object "list_reverseiterator"), xs)
  | name, [v] => match Comparison.ofMethod? name, v.listItems? with
    | some o, some _ => (o.reply (.list xs) v, xs)
    | some _, none => (.ok .declined, xs)
    | none, _ => (.error .wrongKind, xs)
  | _, _ => (.error .wrongKind, xs)

def callList (xs : List Value) (name : String) (arguments : List Value) :
    Except Fault Reply × List Value :=
  match name, arguments with
  | "append", [v] => (.ok .done, xs ++ [v])
  | "clear", [] => (.ok .done, [])
  | "copy", [] => keepItems xs (.ok (.list xs))
  | "count", [v] => keepItems xs (.ok (.int (Sequence.count xs v)))
  | "extend", [v] => changeItems xs .done (Sequence.plus xs v.elements?)
  | "index", v :: bounds => keepItems xs ((Sequence.find xs v bounds).map fun i => .int i)
  | "insert", [k, v] => changeItems xs .done (insertItem xs k v)
  | "pop", [] => match xs.getLast? with
    | some x => (.ok (.value x), xs.dropLast)
    | none => (.error .noSuchIndex, xs)
  | "pop", [k] => match popItem xs k with
    | .ok (x, ys) => (.ok (.value x), ys)
    | .error f => (.error f, xs)
  | "remove", [v] => changeItems xs .done (removeItem xs v)
  | "reverse", [] => (.ok .done, xs.reverse)
  | "sort", [] => match Sorting.sort sortOrder xs with
    | (none, ys) => (.ok .done, ys)
    | (some f, ys) => (.error f, ys)
  | name, arguments => callListOperator xs name arguments

end DBusHost
