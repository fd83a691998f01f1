import DBusHost.Binary64
import DBusHost.Signature.Checked

/-!
# Values

The values that a host program puts into messages and gets out of them.  Their kinds
are not known beforehand, so one type has them all: plain numbers, texts, bytes and
collections, the D-Bus texts and descriptors that are told apart from plain ones, and
the three typed containers, which carry a `Tag`.

A tag says which signature the contents of a container have, if that was fixed, and
in how many variants the container is wrapped.
-/

namespace DBusHost

/-- A number of variants, kept as the kind of integer it was given as. -/
inductive Level where
  | count (n : Nat)
  | flag (b : Bool)
  | descriptor (n : Nat)
  deriving DecidableEq, Repr

/-- The number of variants that a level stands for. -/
def Level.toNat : Level → Nat
  | count n => n
  | flag b => b.toNat
  | descriptor n => n

/-- What a typed container carries beside its contents. -/
structure Tag where
  /-- The signature of the elements, of a key and a value, or of the fields. -/
  signature : Option Signature
  /-- The number of variants around the container. -/
  level : Level
  deriving DecidableEq, Repr

/-- A value of a host program. -/
inductive Value where
  | null
  | bool (b : Bool)
  | int (i : Int)
  /-- The number of an open file. -/
  | descriptor (i : Int)
  | double (x : Binary64)
  | text (s : String)
  | path (s : String)
  | signature (g : Signature)
  | bytes (bs : List UInt8)
  /-- Bytes that may be changed in place, and so are no key of a map. -/
  | buffer (bs : List UInt8)
  | list (items : List Value)
  | tuple (items : List Value)
  /-- Entries in the order in which their keys were first put in. -/
  | map (entries : List (Value × Value))
  | array (items : List Value) (tag : Tag)
  | dictionary (entries : List (Value × Value)) (tag : Tag)
  | struct (items : List Value) (tag : Tag)
  /-- A plain object of a kind with the given name: it counts as true, it is neither a
  number nor a text, and it has no items. -/
  | object (kind : String)

namespace Value

instance : Inhabited Value := ⟨null⟩

def kindName : Value → String
  | null => "NoneType"
  | bool _ => "bool"
  | int _ => "int"
  | descriptor _ => "UnixFD"
  | double _ => "float"
  | text _ => "str"
  | path _ => "ObjectPath"
  | signature _ => "Signature"
  | bytes _ => "bytes"
  | buffer _ => "bytearray"
  | list _ => "list"
  | tuple _ => "tuple"
  | map _ => "dict"
  | array .. => "Array"
  | dictionary .. => "Dictionary"
  | struct .. => "Struct"
  | object kind => kind

/-- The integer, for the kinds that are integers. -/
def integer? : Value → Option Int
  | bool b => some b.toInt
  | int i => some i
  | descriptor i => some i
  | _ => none

/-- The text, for the kinds that are text. -/
def text? : Value → Option String
  | text s => some s
  | path s => some s
  | signature g => some g.text
  | _ => none

/-- The bytes, for the kinds that are bytes. -/
def bytes? : Value → Option (List UInt8)
  | bytes bs => some bs
  | buffer bs => some bs
  | _ => none

/-- The items, for lists and arrays. -/
def listItems? : Value → Option (List Value)
  | list xs => some xs
  | array xs _ => some xs
  | _ => none

/-- The items, for tuples and structs. -/
def tupleItems? : Value → Option (List Value)
  | tuple xs => some xs
  | struct xs _ => some xs
  | _ => none

/-- The items, for lists and tuples of either sort. -/
def items? : Value → Option (List Value)
  | list xs => some xs
  | array xs _ => some xs
  | tuple xs => some xs
  | struct xs _ => some xs
  | _ => none

/-- The entries, for maps and dictionaries. -/
def entries? : Value → Option (List (Value × Value))
  | map es => some es
  | dictionary es _ => some es
  | _ => none

def tag? : Value → Option Tag
  | array _ t => some t
  | dictionary _ t => some t
  | struct _ t => some t
  | _ => none

/-- The number of variants around a value; only typed containers have any. -/
def level (v : Value) : Nat := (v.tag?.map fun t => t.level.toNat).getD 0

def ofByte (b : UInt8) : Value := int b.toNat

/-- What an iteration over the value gives, if it can be iterated over: the items, the
keys of a map, the characters of a text, the numbers of bytes. -/
def elements? : Value → Option (List Value)
  | text s => some (s.toList.map fun c => text (String.singleton c))
  | path s => some (s.toList.map fun c => text (String.singleton c))
  | signature g => some (g.text.toList.map fun c => text (String.singleton c))
  | bytes bs => some (bs.map ofByte)
  | buffer bs => some (bs.map ofByte)
  | map es => some (es.map Prod.fst)
  | dictionary es _ => some (es.map Prod.fst)
  | v => v.items?

end Value

end DBusHost
