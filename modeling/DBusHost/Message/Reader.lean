import DBusHost.Message.Item
import DBusHost.Signature.Cursor
import DBusHost.Value.Number

/-!
# Reading arguments

A reader stands on one item of a level of a message body: the arguments themselves or
the contents of one container.  Like a cursor over a signature it stands before the
first item until it has been moved once; unlike a cursor it moves behind the last item
in the end and stays there.
-/

namespace DBusHost

/-- A position among the items of a level. -/
structure Reader where
  level : List Item
  position : Nat
  /-- Whether the reader has not been moved yet. -/
  fresh : Bool
  /-- Whether the message had no arguments when the reader was made. -/
  absent : Bool

namespace Reader

/-- The reader before the first argument of a body. -/
def ofBody (items : List Item) : Reader := ⟨items, 0, true, items.isEmpty⟩

def current? (r : Reader) : Option Item := r.level[r.position]?

/-- The type code of the current item. -/
def code (r : Reader) : Nat := (r.current?.map Item.code).getD noType

/-- The type code of the elements, if the current item is an array. -/
def elementCode (r : Reader) : Nat :=
  match r.current? with
  | some (.array element _) => Cursor.codeOf element.toList
  | _ => noType

/-- Move behind the current item, unless the end is reached already. -/
def skip (r : Reader) : Reader :=
  { r with position := min (r.position + 1) r.level.length }

/-- Move on in a loop: the first time to the first item, then to the next one.  The
answer is why there is none, if there is none. -/
def advance (r : Reader) : Option EndReason × Reader :=
  if r.absent then (some .emptyMessage, r)
  else if r.fresh then
    (if r.code = noType then some .emptyContainer else none, { r with fresh := false })
  else
    let r := r.skip
    (if r.code = noType then some .endOfMessage else none, r)

/-- The reader before the first item inside the current container. -/
def inside (r : Reader) : Reader :=
  ⟨(r.current?.map Item.inside).getD [], 0, true, false⟩

/-- The signature text of the current item, asked of the native library. -/
def text (r : Reader) : Attempt String := do
  Attempt.call .messageSignatureText
  return (r.current?.map Item.text).getD ""

end Reader

namespace BasicType

def integerIn : Scalar → Except Fault Int
  | .integer i => .ok i
  | .double _ | .string _ => .error .wrongKind

def doubleIn : Scalar → Except Fault Binary64
  | .double x => .ok x
  | .integer _ => .error .tooLarge
  | .string _ => .error .wrongKind

/-- The text that a native cell holds, up to its first nul. -/
def textIn : Scalar → Except Fault String
  | .string s => .ok (Text.beforeNul s)
  | .integer _ | .double _ => .error .wrongKind

/-- The value of a basic type that a native cell holds. -/
def valueIn (v : Validator) (t : BasicType) (content : Scalar) : Except Fault Value :=
  match t with
  | byte | int16 | uint16 | int32 | uint32 | int64 | uint64 => .int <$> integerIn content
  | boolean => (fun i => .bool (i != 0)) <$> integerIn content
  | double => .double <$> doubleIn content
  | string => .text <$> textIn content
  | objectPath => .path <$> textIn content
  | signature => do return .signature (← Signature.ofText v (← textIn content))
  | unixFd => .descriptor <$> integerIn content

end BasicType

/-- The basic value of a cell whose type a character names. -/
def basicValue (v : Validator) (type : Char) (content : Scalar) : Except Fault Value :=
  match BasicType.ofChar? type with
  | some t => t.valueIn v content
  | none => .error .noSuchKey

def Reader.basic (v : Validator) (r : Reader) : Except Fault Value :=
  match r.current? with
  | some (.basic type content) => basicValue v type content
  | _ => .error .noSuchKey

end DBusHost
