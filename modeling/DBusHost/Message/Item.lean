import DBusHost.Binary64
import DBusHost.Text.Storage
import DBusHost.TypeCode

/-!
# The body of a message

A message body is a list of items.  An item is a basic value in its native cell, or a
container of items; an array also says what its elements are, so that an empty array
still has a type.

The signature of a body is read off its items.
-/

namespace DBusHost

/-- What a native cell holds. -/
inductive Scalar where
  | integer (i : Int)
  | double (x : Binary64)
  | string (s : String)
  deriving DecidableEq, Repr

/-- A cell of a kind holds the content: integers keep as many bits as fit, a double may
be given as an integer, and a string ends at its first nul.  Content of another sort
stays as it is. -/
def Storage.keep : Storage → Scalar → Scalar
  | integer w, .integer i => .integer (w.store i)
  | double, .integer i => match Binary64.ofInt? i with
    | some x => .double x
    | none => .integer i
  | string, .string s => .string (Text.beforeNul s)
  | _, content => content

/-- One value of a message body. -/
inductive Item where
  | basic (type : Char) (content : Scalar)
  | array (element : String) (items : List Item)
  | struct (items : List Item)
  | dictEntry (items : List Item)
  | variant (items : List Item)
  deriving Repr

namespace Item

/-- A basic value as it comes in, in the cell of its type if it has a type. -/
def received (type : Char) (content : Scalar) : Item :=
  match BasicType.ofChar? type with
  | some t => basic type (t.storage.keep content)
  | none => basic type content

def code : Item → Nat
  | basic t _ => typeCode t
  | array .. => ContainerKind.array.code
  | struct _ => ContainerKind.struct.code
  | dictEntry _ => ContainerKind.dictEntry.code
  | variant _ => ContainerKind.variant.code

/-- The items of a container. -/
def inside : Item → List Item
  | basic .. => []
  | array _ items => items
  | struct items => items
  | dictEntry items => items
  | variant items => items

/-- What is inside the last one of the containers at some positions, each of which is
inside the one before. -/
def within (items : List Item) : List Nat → List Item
  | [] => items
  | i :: rest => within ((items[i]?.map inside).getD []) rest

mutual

def chars : Item → List Char
  | basic t _ => [t]
  | array element _ => 'a' :: element.toList
  | struct items => '(' :: listChars items ++ [')']
  | dictEntry items => '{' :: listChars items ++ ['}']
  | variant _ => ['v']
termination_by structural item => item

def listChars : List Item → List Char
  | [] => []
  | item :: rest => item.chars ++ listChars rest
termination_by structural items => items

end

def text (item : Item) : String := String.ofList item.chars

def bodyText (items : List Item) : String := String.ofList (listChars items)

end Item

end DBusHost
