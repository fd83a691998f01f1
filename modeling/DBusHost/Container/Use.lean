import DBusHost.Container.Parts
import DBusHost.Value.Key

/-!
# Uses of containers

`Container.apply` is one use of a container: the answer and the container afterwards.
A method is called under the name of an attribute, so that calling what is no method, or
what a further attribute hides, is a fault.
-/

namespace DBusHost

inductive Operation where
  | render
  | length
  | get (k : Value)
  | slice (a b : Value)
  | set (k v : Value)
  | delete (k : Value)
  | contains (v : Value)
  | equals (v : Value)
  | sameKey (v : Value)
  | plus (v : Value)
  | times (n : Value)
  | method (name : Value) (arguments : List Value)
  | guess
  | getAttribute (name : Value)
  | setAttribute (name v : Value)
  | deleteAttribute (name : Value)
  | refill (arguments : Arguments)

namespace Container

/-- The text of the container in a format; there is only the empty one. -/
def format (c : Container) (spec : Value) : Except Fault Value :=
  match spec.text? with
  | some "" => .ok (.text c.render)
  | _ => .error .wrongKind

/-- Make a container without filling it, of a class that is given first.  No value is a
class; a struct looks at the other arguments before it finds out. -/
def allocate (c : Container) (arguments : List Value) : Fault :=
  match c.contents, arguments with
  | .struct _, [_] | .struct _, _ :: _ :: _ :: _ => .noSuchAttribute
  | _, _ => .wrongKind

/-- Call a method that concerns the collection alone. -/
def callCollection (c : Container) (name : String) (arguments : List Value) :
    Except Fault Value × Container :=
  let (reply, d) : Except Fault Reply × Contents := match c.contents with
    | .array xs =>
      let (reply, ys) := callList xs name arguments
      (reply, .array ys)
    | .dictionary es =>
      let (reply, fs) := callMap es name arguments
      (reply, .dictionary fs)
    | .struct xs => (callTuple xs name arguments, .struct xs)
  let c := { c with contents := d }
  match reply with
  | .ok (.value v) => (.ok v, c)
  | .ok .itself => (.ok c.toValue, c)
  | .error f => (.error f, c)

def call (v : Validator) (c : Container) (name : String) (arguments : List Value) :
    Except Fault Value × Container :=
  match name, arguments with
  | "__repr__", [] | "__str__", [] => c.ask (.ok (.text c.render))
  | "__format__", [spec] => c.ask (c.format spec)
  | "__class__", arguments => c.ask (toValue <$> c.makeAlike v ⟨arguments, []⟩)
  | "__new__", arguments => c.ask (.error (c.allocate arguments))
  | "__init__", arguments => c.refill v ⟨arguments, []⟩
  | "__getattribute__", [name] => c.ask (c.getAttribute name)
  | "__setattr__", [name, x] =>
    if c.isFixed then c.ask (.error (.immutable c.maker)) else c.putAttribute name x
  | "__delattr__", [name] =>
    if c.isFixed then c.ask (.error (.immutable c.maker)) else c.dropAttribute name
  | "__class_getitem__", [_] => c.ask (.ok (.object "GenericAlias"))
  | "__getstate__", [] => c.ask (.ok c.state)
  | "__reduce__", [] => c.ask c.simpleParts
  | "__reduce_ex__", [form] => c.ask (c.parts form)
  | "__init_subclass__", [] => c.ask (.ok .null)
  | "__subclasshook__", _ => c.ask (.ok (.object "NotImplementedType"))
  | name, arguments => c.callCollection name arguments

/-- Call the method of a name. -/
def method (v : Validator) (c : Container) (name : Value) (arguments : List Value) :
    Except Fault Value × Container :=
  match c.findAttribute name with
  | .error f => c.ask (.error f)
  | .ok (.data _) => c.ask (.error .wrongKind)
  | .ok (.method _) => c.call v ((name.text?).getD "") arguments

/-- Fill a container anew by its method, unless another attribute hides that. -/
def refillByMethod (v : Validator) (c : Container) (a : Arguments) :
    Except Fault Value × Container :=
  match c.attribute? "__init__" with
  | some (.method _) => c.refill v a
  | _ => c.ask (.error .wrongKind)

/-- Use a container: the answer and the container afterwards. -/
def apply (v : Validator) (c : Container) : Operation → Except Fault Value × Container
  | .render => c.ask (.ok (.text c.render))
  | .length => c.ask (.ok (.int c.size))
  | .get k => c.ask (c.get k)
  | .slice a b => c.ask (c.slice a b)
  | .set k x => c.set k x
  | .delete k => c.delete k
  | .contains x => c.ask (.bool <$> c.has x)
  | .equals x => c.ask (.ok (.bool (c.toValue.same x)))
  | .sameKey x => c.ask (.bool <$> c.sameKey x)
  | .plus x => c.ask (c.plus x)
  | .times n => c.ask (c.times n)
  | .method name arguments => c.method v name arguments
  | .guess => c.ask ((c.toValue.guess v).map fun g => .text g.text)
  | .getAttribute name => c.ask (c.getAttribute name)
  | .setAttribute name x => c.setAttribute name x
  | .deleteAttribute name => c.deleteAttribute name
  | .refill a => c.refillByMethod v a

/-- Use a container again and again: each answer with the container after it.  A use
whose operands could not be made fails and leaves the container as it is. -/
def applyAll (v : Validator) (c : Container) :
    List (Except Fault Operation) → List (Except Fault Value × Container)
  | [] => []
  | .error f :: rest => (.error f, c) :: applyAll v c rest
  | .ok o :: rest =>
    let after := c.apply v o
    after :: applyAll v after.2 rest

end Container

end DBusHost
