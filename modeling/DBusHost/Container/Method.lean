import DBusHost.Container.Sequence
import DBusHost.Container.Entries
import DBusHost.Value.Order

/-!
# Methods of collections

The methods of lists, maps and tuples by their published names.  Those that stand for an
operator have names between underscores; every collection has some of these, and a few
more depend on its kind.

A method that is looked at and not called shows only its `MethodForm`.  A method that is
called answers with a `Reply`.
-/

namespace DBusHost

/-- What can be seen of a method that is not called. -/
inductive MethodForm where
  /-- A method of a plain collection. -/
  | builtin
  /-- A method that stands for an operator. -/
  | operator
  /-- A method of a typed container. -/
  | bound
  /-- A method that is bound to nothing. -/
  | free
  | class_
  deriving DecidableEq, Repr

def MethodForm.kindName : MethodForm → String
  | builtin => "builtin_function_or_method"
  | operator => "method-wrapper"
  | bound => "method"
  | free => "function"
  | class_ => "type"

/-- What a method answers with. -/
inductive Reply where
  | value (v : Value)
  /-- The collection itself, as it is afterwards. -/
  | itself

namespace Reply

/-- The answer of a method that only does something. -/
def done : Reply := value .null

/-- The answer of an operator that does not take the other operand. -/
def declined : Reply := value (.object "NotImplementedType")

/-- An answer of which only the kind can be seen. -/
def object (kind : String) : Reply := value (.object kind)

end Reply

def sharedMethods : List (MethodForm × List String) :=
  [(.operator, ["__eq__", "__ge__", "__getattribute__", "__gt__", "__iter__", "__le__",
      "__len__", "__lt__", "__ne__", "__str__"]),
    (.builtin, ["__class_getitem__", "__dir__", "__format__", "__getstate__",
      "__init_subclass__", "__reduce__", "__reduce_ex__", "__sizeof__",
      "__subclasshook__"]),
    (.bound, ["__repr__"]),
    (.free, ["__new__"]),
    (.class_, ["__class__"])]

def Comparison.ofMethod? : String → Option Comparison
  | "__eq__" => some same
  | "__ne__" => some different
  | "__lt__" => some less
  | "__le__" => some atMost
  | "__gt__" => some greater
  | "__ge__" => some atLeast
  | _ => none

/-- The answer of a comparison with a collection of the same sort. -/
def Comparison.reply (o : Comparison) (v w : Value) : Except Fault Reply :=
  match v.compare? w o with
  | some b => .ok (.value (.bool b))
  | none => .error .wrongKind

end DBusHost
