import DBusHost.Fault
import DBusHost.Value.Key

/-!
# Entries of a map

The entries of a map stand in the order in which their keys were first put in.  A
key that is the same as one that is there keeps the place and the form of that one
and takes a new value.
-/

namespace DBusHost.Entries

def get? (es : List (Value × Value)) (k : Value) : Option Value :=
  (es.find? fun e => k.same e.1).map Prod.snd

def insert (es : List (Value × Value)) (k v : Value) : List (Value × Value) :=
  match es with
  | [] => [(k, v)]
  | (k', v') :: rest => if k.same k' then (k', v) :: rest else (k', v') :: insert rest k v

def erase (es : List (Value × Value)) (k : Value) : List (Value × Value) :=
  match es with
  | [] => []
  | (k', v') :: rest => if k.same k' then rest else (k', v') :: erase rest k

/-- A value that can change is not a key. -/
def checkKey (k : Value) : Except Fault Unit :=
  if k.isKeyable then .ok () else .error .wrongKind

/-- The value at a key, or another one; the key has to be fit for a map. -/
def getOr (es : List (Value × Value)) (k default : Value) : Except Fault Value := do
  checkKey k
  return (get? es k).getD default

/-- The value at a key that has to be there. -/
def get (es : List (Value × Value)) (k : Value) : Except Fault Value := do
  checkKey k
  match get? es k with
  | some v => return v
  | none => throw .noSuchKey

/-- Put a value at a key that has to be fit for a map. -/
def set (es : List (Value × Value)) (k v : Value) : Except Fault (List (Value × Value)) := do
  checkKey k
  return insert es k v

/-- Take the entry of a key away that has to be there. -/
def delete (es : List (Value × Value)) (k : Value) : Except Fault (List (Value × Value)) := do
  checkKey k
  if (get? es k).isSome then return erase es k else throw .noSuchKey

def contains (es : List (Value × Value)) (k : Value) : Except Fault Bool := do
  checkKey k
  return (get? es k).isSome

/-- Put in pairs, each given as a pair of items; on a fault the entries before it stay. -/
def insertPairs (es : List (Value × Value)) : List Value → Option Fault × List (Value × Value)
  | [] => (none, es)
  | p :: ps =>
    match p.elements? with
    | none => (some .wrongKind, es)
    | some [k, v] =>
      if k.isKeyable then insertPairs (insert es k v) ps else (some .wrongKind, es)
    | some _ => (some .badValue, es)

/-- Put in everything that a map or a collection of pairs holds. -/
def insertFrom (es : List (Value × Value)) (source : Value) :
    Option Fault × List (Value × Value) :=
  match source.entries? with
  | some fs => (none, fs.foldl (fun es f => insert es f.1 f.2) es)
  | none => match source.elements? with
    | some ps => insertPairs es ps
    | none => (some .wrongKind, es)

/-- The entries of a new map that holds what the source holds. -/
def ofSource (source : Value) : Except Fault (List (Value × Value)) :=
  match insertFrom [] source with
  | (none, es) => .ok es
  | (some f, _) => .error f

end DBusHost.Entries
