import DBusHost.Container.Method

/-!
# Methods of tuples

`callTuple` calls a method of a tuple, which never changes it.
-/

namespace DBusHost

/-- The methods of a tuple beside those of every collection, by form. -/
def tupleMethods : List (MethodForm × List String) :=
  [(.builtin, ["count", "index", "__getnewargs__"]),
    (.operator, ["__add__", "__contains__", "__getitem__", "__hash__", "__init__",
      "__mul__", "__rmul__"]),
    (.bound, ["__delattr__", "__setattr__"])]

/-- The key of a tuple as a number; of a key that is no number only the kind is known. -/
def tupleKey (xs : List Value) : Except Fault Value :=
  match (Value.tuple xs).key? with
  | some (.number i) => .ok (.int i)
  | some _ => .ok (.object (Value.int 0).kindName)
  | none => .error .wrongKind

def callTuple (xs : List Value) (name : String) (arguments : List Value) :
    Except Fault Reply :=
  match name, arguments with
  | "count", [v] => .ok (.value (.int (Sequence.count xs v)))
  | "index", v :: bounds => (Sequence.find xs v bounds).map fun i => .value (.int i)
  | "__len__", [] => .ok (.value (.int xs.length))
  | "__getitem__", [k] => .value <$> Sequence.get xs k
  | "__contains__", [v] => .ok (.value (.bool (Sequence.contains xs v)))
  | "__add__", [v] => (.value ∘ .tuple) <$> Sequence.plus xs v.tupleItems?
  | "__mul__", [n] => (.value ∘ .tuple) <$> Sequence.times xs n
  | "__rmul__", [n] => (.value ∘ .tuple) <$> Sequence.times xs n
  | "__hash__", [] => .value <$> tupleKey xs
  | "__iter__", [] => .ok (.object "tuple_iterator")
  | "__getnewargs__", [] => .ok (.value (.tuple [.tuple xs]))
  | name, [v] => match Comparison.ofMethod? name, v.tupleItems? with
    | some o, some _ => o.reply (.tuple xs) v
    | some _, none => .ok .declined
    | none, _ => .error .wrongKind
  | _, _ => .error .wrongKind

end DBusHost
