import DBusHost.Container.Construction
import DBusHost.Message.Reader

/-!
# Unmarshalling items

An item becomes a value: a basic item a plain value, a container a typed container with
the signature that the message gives its contents, and a variant whatever it contains.
The level counts the variants that have been unwrapped on the way to a container; it
starts anew inside every container.

The signature of an array is looked at before its items and the signature of a struct
after them, which shows when both are faulty.
-/

namespace DBusHost

namespace Unmarshal

/-- Turn a plain failure into one of an attempt. -/
def lift {α : Type} (e : Except Fault α) : Attempt α := fun f => (e, f)

/-- Inside an iteration, the end of another one is a fault of its own. -/
def insideIteration {α : Type} (a : Attempt α) : Attempt α :=
  tryCatch a fun f => throw (match f with
    | .ended _ => .endInside
    | f => f)

/-- The part of a signature text without its first `front` and last `back` characters. -/
def inner (front back : Nat) (s : String) : String :=
  String.ofList ((s.toList.drop front).take (s.length - front - back))

mutual

def read (v : Validator) (level : Value) : Item → Attempt Value
  | .basic type content =>
    match BasicType.ofChar? type with
    | some t => lift (t.valueIn v content)
    | none => throw (.unknownArgument (typeCode type))
  | .array element items => do
    Attempt.call .messageSignatureText
    let text := (Item.array element items).text
    if Cursor.codeOf element.toList = ContainerKind.dictEntry.code then
      let entries ← readEntries v items
      lift (makeContainer v .dictionary
        ⟨[.list entries], [(signatureParameter, .text (inner 2 1 text)), (levelParameter, level)]⟩)
    else
      let level ← lift (Level.ofValue level)
      let signature ← lift (Signature.ofText v (inner 1 0 text))
      let values ← readEach v items
      return .array values ⟨some signature, level⟩
  | .struct items => do
    let values ← readEach v items
    Attempt.call .messageSignatureText
    let level ← lift (Level.ofValue level)
    let signature ← lift (Signature.ofText v (inner 1 1 (Item.struct items).text))
    return .struct values ⟨some signature, level⟩
  | .dictEntry _ => throw (.unknownArgument ContainerKind.dictEntry.code)
  | .variant [] => throw (.ended .emptyContainer)
  | .variant (item :: _) => do
    let level ← lift level.levelAbove
    read v level item
termination_by structural item => item

/-- The values of items, each at level zero, inside an iteration. -/
def readEach (v : Validator) : List Item → Attempt (List Value)
  | [] => pure []
  | item :: rest => do
    let x ← insideIteration (read v (.int 0) item)
    return x :: (← readEach v rest)
termination_by structural items => items

/-- The entries of an array of dict entries, each as a tuple. -/
def readEntries (v : Validator) : List Item → Attempt (List Value)
  | [] => pure []
  | .dictEntry items :: rest => do
    let pair ← readEach v items
    return .tuple pair :: (← readEntries v rest)
  | _ :: _ => throw (.misused .entryExpected)
termination_by structural items => items

end

end Unmarshal

/-- The value of the item that a reader stands on, given a level. -/
def Reader.object (v : Validator) (r : Reader) (level : Value) : Attempt Value :=
  match r.current? with
  | some item => Unmarshal.read v level item
  | none => throw (.unknownArgument noType)

def Item.objects (v : Validator) (body : List Item) : Attempt (List Value) :=
  Unmarshal.readEach v body

end DBusHost
