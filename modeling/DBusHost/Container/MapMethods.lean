import DBusHost.Container.Construction
import DBusHost.Container.Method

/-!
# Methods of maps

`callMap` calls a method of a map: the answer and the entries afterwards.  A method that
fails leaves the entries as they were, except that an update stops at the first faulty
pair and keeps those before it.
-/

namespace DBusHost

/-- The methods of a map beside those of every collection, by form. -/
def mapMethods : List (MethodForm × List String) :=
  [(.builtin, ["clear", "copy", "fromkeys", "get", "items", "keys", "pop", "popitem",
      "setdefault", "update", "values", "__contains__", "__getitem__", "__reversed__"]),
    (.operator, ["__delattr__", "__delitem__", "__ior__", "__or__", "__ror__",
      "__setattr__", "__setitem__"]),
    (.bound, ["__init__"])]

def entryTuple (e : Value × Value) : Value := .tuple [e.1, e.2]

/-- A dictionary that has one value at each of several keys. -/
def dictionaryOfKeys (source default : Value) : Except Fault Value := do
  let keys ← itemsOfSource source
  if keys.all Value.isKeyable then
    return .dictionary (keys.foldl (fun es k => Entries.insert es k default) [])
      ⟨none, .count 0⟩
  else throw .wrongKind

def keepEntries (es : List (Value × Value)) (answer : Except Fault Value) :
    Except Fault Reply × List (Value × Value) :=
  (.value <$> answer, es)

/-- An answer that goes with new entries, unless these could not be made. -/
def changeEntries (es : List (Value × Value)) (reply : Reply)
    (entries : Except Fault (List (Value × Value))) :
    Except Fault Reply × List (Value × Value) :=
  match entries with
  | .ok fs => (.ok reply, fs)
  | .error f => (.error f, es)

/-- Put in all that a source holds, up to the first fault. -/
def updateEntries (es : List (Value × Value)) (reply : Reply) (source : Value) :
    Except Fault Reply × List (Value × Value) :=
  match Entries.insertFrom es source with
  | (none, fs) => (.ok reply, fs)
  | (some f, fs) => (.error f, fs)

def popEntry (es : List (Value × Value)) (k : Value) (default : Option Value) :
    Except Fault Reply × List (Value × Value) :=
  if !es.isEmpty && !k.isKeyable then (.error .wrongKind, es)
  else match Entries.get? es k, default with
    | some v, _ => (.ok (.value v), Entries.erase es k)
    | none, some v => (.ok (.value v), es)
    | none, none => (.error .noSuchKey, es)

/-- The value at a key, which is put in first if there is none. -/
def defaultEntry (es : List (Value × Value)) (k default : Value) :
    Except Fault Reply × List (Value × Value) :=
  if k.isKeyable then
    match Entries.get? es k with
    | some v => (.ok (.value v), es)
    | none => (.ok (.value default), Entries.insert es k default)
  else (.error .wrongKind, es)

/-- The union of two maps; the second one prevails. -/
def unionMap (es fs : List (Value × Value)) : Value :=
  .map (fs.foldl (fun es f => Entries.insert es f.1 f.2) es)

/-- Call a method of a map that stands for an operator. -/
def callMapOperator (es : List (Value × Value)) (name : String) (arguments : List Value) :
    Except Fault Reply × List (Value × Value) :=
  match name, arguments with
  | "__len__", [] => keepEntries es (.ok (.int es.length))
  | "__getitem__", [k] => keepEntries es (Entries.get es k)
  | "__setitem__", [k, v] => changeEntries es .done (Entries.set es k v)
  | "__delitem__", [k] => changeEntries es .done (Entries.delete es k)
  | "__contains__", [k] => keepEntries es (.bool <$> Entries.contains es k)
  | "__or__", [v] => match v.entries? with
    | some fs => keepEntries es (.ok (unionMap es fs))
    | none => (.ok .declined, es)
  | "__ror__", [v] => match v.entries? with
    | some fs => keepEntries es (.ok (unionMap fs es))
    | none => (.ok .declined, es)
  | "__ior__", [v] => updateEntries es .itself v
  | "__iter__", [] => (.ok (.object "dict_keyiterator"), es)
  | "__reversed__", [] => (.ok (.object "dict_reversekeyiterator"), es)
  | "__eq__", [v] => match v.entries? with
    | some _ => (Comparison.same.reply (.map es) v, es)
    | none => (.ok .declined, es)
  | "__ne__", [v] => match v.entries? with
    | some _ => (Comparison.different.reply (.map es) v, es)
    | none => (.ok .declined, es)
  | name, [_] =>
    (if (Comparison.ofMethod? name).isSome then .ok .declined else .error .wrongKind, es)
  | _, _ => (.error .wrongKind, es)

def callMap (es : List (Value × Value)) (name : String) (arguments : List Value) :
    Except Fault Reply × List (Value × Value) :=
  match name, arguments with
  | "clear", [] => (.ok .done, [])
  | "copy", [] => keepEntries es (.ok (.map es))
  | "fromkeys", [source] => keepEntries es (dictionaryOfKeys source .null)
  | "fromkeys", [source, default] => keepEntries es (dictionaryOfKeys source default)
  | "get", [k] => keepEntries es (Entries.getOr es k .null)
  | "get", [k, default] => keepEntries es (Entries.getOr es k default)
  | "items", [] => keepEntries es (.ok (.list (es.map entryTuple)))
  | "keys", [] => keepEntries es (.ok (.list (es.map Prod.fst)))
  | "pop", [k] => popEntry es k none
  | "pop", [k, default] => popEntry es k (some default)
  | "popitem", [] => match es.getLast? with
    | some e => (.ok (.value (entryTuple e)), es.dropLast)
    | none => (.error .noSuchKey, es)
  | "setdefault", [k] => defaultEntry es k .null
  | "setdefault", [k, default] => defaultEntry es k default
  | "update", [] => (.ok .done, es)
  | "update", [source] => updateEntries es .done source
  | "values", [] => keepEntries es (.ok (.list (es.map Prod.snd)))
  | name, arguments => callMapOperator es name arguments

end DBusHost
