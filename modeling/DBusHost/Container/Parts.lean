import DBusHost.Container.Attribute

/-!
# Taking containers apart

A container can be taken apart into what another one like it is made from: what makes it,
what that takes, and the state that the new container is then given.  Of two forms, the
simple one has no place for the tag of an array or a dictionary.
-/

namespace DBusHost.Container

/-- What the container keeps besides its items or entries. -/
def state (c : Container) : Value :=
  if c.isFixed then .map c.keptByName
  else .tuple [if c.extras.isEmpty then .null else .map c.extras,
    .map [(.text keptSignature, c.tag.signatureValue), (.text keptLevel, c.tag.levelValue)]]

/-- What makes a container when the parts are put together. -/
def partsMaker : Value := .object MethodForm.free.kindName

def partsClass : Value := .object MethodForm.class_.kindName

def simpleParts (c : Container) : Except Fault Value :=
  match c.contents with
  | .struct xs => .ok (.tuple [partsMaker, .tuple [partsClass, partsClass, .tuple xs], c.state])
  | .array _ | .dictionary _ => .error .wrongKind

/-- The parts in the full form, which has the items of an array and the entries of a
dictionary at the end. -/
def fullParts (c : Container) : Value :=
  match c.contents with
  | .array _ =>
    .tuple [partsMaker, .tuple [partsClass], c.state, .object "list_iterator", .null]
  | .dictionary _ =>
    .tuple [partsMaker, .tuple [partsClass], c.state, .null, .object "dict_itemiterator"]
  | .struct xs => .tuple [partsMaker, .tuple [partsClass, .tuple xs], c.state, .null, .null]

/-- The parts in the form of a number: the simple one is that of zero and one. -/
def parts (c : Container) (form : Value) : Except Fault Value :=
  match form.integer? with
  | none => .error .wrongKind
  | some i =>
    if !IntWindow.contains ⟨true, 32⟩ i then .error .tooLarge
    else if i < 2 then c.simpleParts
    else .ok c.fullParts

end DBusHost.Container
