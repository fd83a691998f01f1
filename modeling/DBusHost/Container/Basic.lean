import DBusHost.Container.Construction
import DBusHost.Container.Sequence

/-!
# Typed containers in use

A typed container behaves like the plain collection that it extends, and carries its
tag through all of that.

Of the tag, only the signature of an array or a dictionary can change, and only by
filling the container anew; a struct cannot change at all.  A container of a named
class derived from one of the three may carry further attributes, unless it is a
struct.
-/

namespace DBusHost

/-- A typed container that is in use. -/
structure Container where
  /-- The name of the container's class. -/
  maker : String
  /-- Whether the class is derived from one of the three. -/
  derived : Bool
  contents : Contents
  tag : Tag
  /-- Further attributes by name, in the order in which they were first set. -/
  extras : List (Value × Value)

namespace Container

def toValue (c : Container) : Value := c.contents.toValue c.tag

/-- The text of the container under the name of its class. -/
def render (c : Container) : String :=
  c.tag.render c.maker (match c.contents with
    | .array xs => bracketed (Value.renderItems xs)
    | .dictionary es => braced (Value.renderEntries es)
    | .struct xs => parenthesized (Value.renderItems xs))

/-- Make a container of one of the three classes, or of a class derived from it. -/
def make (v : Validator) (c : ContainerClass) (derivedName : Option String)
    (a : Arguments) : Except Fault Container := do
  let maker := derivedName.getD c.name
  let (contents, tag) ← makeContents v c maker a
  return ⟨maker, derivedName.isSome, contents, tag, []⟩

/-- Make another container of the same class. -/
def makeAlike (v : Validator) (c : Container) (a : Arguments) : Except Fault Container :=
  make v c.contents.containerClass (if c.derived then some c.maker else none) a

/-- The number of items or entries. -/
def size (c : Container) : Nat :=
  match c.contents with
  | .array xs => xs.length
  | .dictionary es => es.length
  | .struct xs => xs.length

/-- The container cannot change at all. -/
def isFixed (c : Container) : Bool :=
  match c.contents with
  | .struct _ => true
  | .array _ | .dictionary _ => false

/-- The answer to a question, and the container as it was. -/
def ask (c : Container) (answer : Except Fault Value) : Except Fault Value × Container :=
  (answer, c)

/-- The container with other contents, unless these could not be made. -/
def change (c : Container) (contents : Except Fault Contents) :
    Except Fault Value × Container :=
  match contents with
  | .ok d => (.ok .null, { c with contents := d })
  | .error f => (.error f, c)

/-- Fill a container anew.  An array whose source cannot be iterated over is left
empty, and a dictionary keeps the entries it has and takes those before the fault;
the signature changes only if all went well.  A struct stays as it is. -/
def refill (v : Validator) (c : Container) (a : Arguments) : Except Fault Value × Container :=
  match c.contents with
  | .struct _ => c.ask (.ok .null)
  | .array _ =>
    match a.filling v .array with
    | .error f => c.ask (.error f)
    | .ok (source, signature) =>
      match itemsOfSource source with
      | .ok xs =>
        (.ok .null, { c with contents := .array xs, tag := { c.tag with signature } })
      | .error f => (.error f, { c with contents := .array [] })
  | .dictionary es =>
    match a.filling v .dictionary with
    | .error f => c.ask (.error f)
    | .ok (source, signature) =>
      match Entries.insertFrom es source with
      | (none, fs) =>
        (.ok .null, { c with contents := .dictionary fs, tag := { c.tag with signature } })
      | (some f, fs) => (.error f, { c with contents := .dictionary fs })

def get (c : Container) (k : Value) : Except Fault Value :=
  match c.contents with
  | .array xs => Sequence.get xs k
  | .struct xs => Sequence.get xs k
  | .dictionary es => Entries.get es k

/-- The plain collection between two bounds. -/
def slice (c : Container) (a b : Value) : Except Fault Value :=
  match c.contents with
  | .array xs => .list <$> Sequence.slice xs a b
  | .struct xs => .tuple <$> Sequence.slice xs a b
  | .dictionary _ => .error .wrongKind

def set (c : Container) (k v : Value) : Except Fault Value × Container :=
  match c.contents with
  | .array xs => c.change (.array <$> Sequence.set xs k v)
  | .struct _ => c.ask (.error (Sequence.refusal k))
  | .dictionary es => c.change (.dictionary <$> Entries.set es k v)

def delete (c : Container) (k : Value) : Except Fault Value × Container :=
  match c.contents with
  | .array xs => c.change (.array <$> Sequence.erase xs k)
  | .struct _ => c.ask (.error (Sequence.refusal k))
  | .dictionary es => c.change (.dictionary <$> Entries.delete es k)

/-- Whether an item or a key is in the container. -/
def has (c : Container) (v : Value) : Except Fault Bool :=
  match c.contents with
  | .array xs => .ok (Sequence.contains xs v)
  | .struct xs => .ok (Sequence.contains xs v)
  | .dictionary es => Entries.contains es v

/-- The plain collection of the items of the container and of another one. -/
def plus (c : Container) (v : Value) : Except Fault Value :=
  match c.contents with
  | .array xs => .list <$> Sequence.plus xs v.listItems?
  | .struct xs => .tuple <$> Sequence.plus xs v.tupleItems?
  | .dictionary _ => .error .wrongKind

/-- The plain collection of the items a number of times over. -/
def times (c : Container) (n : Value) : Except Fault Value :=
  match c.contents with
  | .array xs => .list <$> Sequence.times xs n
  | .struct xs => .tuple <$> Sequence.times xs n
  | .dictionary _ => .error .wrongKind

def sameKey (c : Container) (v : Value) : Except Fault Bool :=
  match c.toValue.key?, v.key? with
  | some k, some l => .ok (Value.Key.same k l)
  | _, _ => .error .wrongKind

end Container

end DBusHost
