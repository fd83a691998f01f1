import DBusHost.Container.Basic
import DBusHost.Container.ListMethods
import DBusHost.Container.MapMethods
import DBusHost.Container.TupleMethods

/-!
# Attributes of containers

An attribute is found in three places, one after the other: the container's own
properties, the further attributes that a container of a derived class has been given,
and the methods and constants of its class.  A further attribute therefore hides a
method of the same name, but never a property.

A name has to be text.  Of the properties, only the two that an array or a dictionary
keeps its tag in can be set, and only to what a tag can hold.
-/

namespace DBusHost

inductive Attribute where
  | data (v : Value)
  | method (form : MethodForm)

def Attribute.toValue : Attribute → Value
  | data v => v
  | method form => .object form.kindName

/-- The name of the property that keeps the signature of an array or a dictionary. -/
def keptSignature : String := "_signature"

/-- The name of the property that keeps the level of an array or a dictionary. -/
def keptLevel : String := "_variant_level"

/-- The name of the property that has all attributes which are kept by name. -/
def namesProperty : String := "__dict__"

namespace Tag

def signatureValue (t : Tag) : Value :=
  match t.signature with
  | some g => .signature g
  | none => .null

def levelValue (t : Tag) : Value :=
  match t.level with
  | .count n => .int n
  | .flag b => .bool b
  | .descriptor n => .descriptor n

end Tag

namespace Container

/-- The methods of the container's class, by form. -/
def methods (c : Container) : List (MethodForm × List String) :=
  (match c.contents with
    | .array _ => listMethods
    | .dictionary _ => mapMethods
    | .struct _ => tupleMethods) ++ sharedMethods

def methodForm? (c : Container) (name : String) : Option MethodForm :=
  (c.methods.find? fun p => p.2.contains name).map Prod.fst

def keptByName (c : Container) : List (Value × Value) :=
  if c.isFixed then
    [(.text levelParameter, c.tag.levelValue), (.text signatureParameter, c.tag.signatureValue)]
  else c.extras

def keepsByName (c : Container) : Bool := c.isFixed || c.derived

/-- Further attributes can be set. -/
def takesExtras (c : Container) : Bool := !c.isFixed && c.derived

/-- The properties that keep the tag of an array or a dictionary. -/
def tagProperties (c : Container) : List (String × Attribute) :=
  if c.isFixed then []
  else [(keptSignature, .data c.tag.signatureValue), (keptLevel, .data c.tag.levelValue)]

def properties (c : Container) : List (String × Attribute) :=
  [(signatureParameter, .data c.tag.signatureValue), (levelParameter, .data c.tag.levelValue),
    ("__class__", .method .class_)] ++ c.tagProperties ++
    (if c.keepsByName then [(namesProperty, .data (.map c.keptByName))] else []) ++
    (if c.takesExtras then [("__weakref__", .data .null)] else [])

def classConstants (c : Container) : List (String × Value) :=
  if c.isFixed then []
  else [("__hash__", .null), ("__slots__", .tuple [.text keptSignature, .text keptLevel])]

def attribute? (c : Container) (name : String) : Option Attribute :=
  (c.properties.lookup name).or
    (((Entries.get? c.extras (.text name)).map .data).or
      (((c.methodForm? name).map .method).or ((c.classConstants.lookup name).map .data)))

def findAttribute (c : Container) (name : Value) : Except Fault Attribute :=
  match name.text? with
  | some s => match c.attribute? s with
    | some a => .ok a
    | none => .error .noSuchAttribute
  | none => .error .wrongKind

def getAttribute (c : Container) (name : Value) : Except Fault Value :=
  Attribute.toValue <$> c.findAttribute name

/-- Keep another signature in the tag, if the value is one or is nothing. -/
def keepSignature (c : Container) (v : Value) : Except Fault Value × Container :=
  match v with
  | .null => (.ok .null, { c with tag := { c.tag with signature := none } })
  | .signature g => (.ok .null, { c with tag := { c.tag with signature := some g } })
  | _ => c.ask (.error .noSuchAttribute)

/-- Keep another level in the tag, if the value is one. -/
def keepLevel (c : Container) (v : Value) : Except Fault Value × Container :=
  match Level.ofValue v with
  | .ok level => (.ok .null, { c with tag := { c.tag with level } })
  | .error _ => c.ask (.error .noSuchAttribute)

/-- Keep other further attributes, if the value is a map. -/
def keepExtras (c : Container) (v : Value) : Except Fault Value × Container :=
  match v.entries? with
  | some es => (.ok .null, { c with extras := es })
  | none => c.ask (.error .wrongKind)

/-- Set an attribute of an array or a dictionary. -/
def putAttribute (c : Container) (name : Value) (v : Value) : Except Fault Value × Container :=
  match name.text? with
  | none => c.ask (.error .wrongKind)
  | some s =>
    match c.properties.lookup s with
    | some (.method _) => c.ask (.error .wrongKind)
    | some (.data _) =>
      if s = keptSignature then c.keepSignature v
      else if s = keptLevel then c.keepLevel v
      else if s = namesProperty then c.keepExtras v
      else c.ask (.error .noSuchAttribute)
    | none =>
      if c.takesExtras then (.ok .null, { c with extras := Entries.insert c.extras name v })
      else c.ask (.error .noSuchAttribute)

/-- Delete an attribute of an array or a dictionary. -/
def dropAttribute (c : Container) (name : Value) : Except Fault Value × Container :=
  match name.text? with
  | none => c.ask (.error .wrongKind)
  | some s =>
    match c.properties.lookup s with
    | some (.method _) => c.ask (.error .wrongKind)
    | some (.data _) =>
      if s = namesProperty then (.ok .null, { c with extras := [] })
      else c.ask (.error .noSuchAttribute)
    | none =>
      if (Entries.get? c.extras name).isSome then
        (.ok .null, { c with extras := Entries.erase c.extras name })
      else c.ask (.error .noSuchAttribute)

def setAttribute (c : Container) (name v : Value) : Except Fault Value × Container :=
  if name.text?.isNone then c.ask (.error .wrongKind)
  else if c.isFixed then c.ask (.error (.immutable c.maker))
  else c.putAttribute name v

def deleteAttribute (c : Container) (name : Value) : Except Fault Value × Container :=
  if name.text?.isNone then c.ask (.error .wrongKind)
  else if c.isFixed then c.ask (.error (.immutable c.maker))
  else c.dropAttribute name

end Container

end DBusHost
