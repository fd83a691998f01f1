import DBusHost.Container.Construction

/-!
# Recipes for values

A recipe describes how a value is made from its parts.  Making a value can fail,
because signatures are checked and keys have to be fit for a map; the parts are made
first, depth first and from left to right.
-/

namespace DBusHost

/-- A description of a value. -/
inductive Recipe where
  /-- A value that needs no making. -/
  | ready (v : Value)
  /-- A signature made from a text. -/
  | signature (text : String)
  | list (items : List Recipe)
  | tuple (items : List Recipe)
  | map (entries : List (Recipe × Recipe))
  /-- An array made from a list of items and arguments given by name. -/
  | array (items : List Recipe) (named : List (String × Recipe))
  /-- A dictionary made from a list of pairs and arguments given by name. -/
  | dictionary (entries : List (Recipe × Recipe)) (named : List (String × Recipe))
  /-- A struct made from a list of items and arguments given by name. -/
  | struct (items : List Recipe) (named : List (String × Recipe))

namespace Recipe

mutual

def build (v : Validator) : Recipe → Except Fault Value
  | ready x => .ok x
  | signature s => .signature <$> Signature.ofText v s
  | list rs => .list <$> buildItems v rs
  | tuple rs => .tuple <$> buildItems v rs
  | map es => do
    let pairs ← buildEntries v es
    return .map (← Entries.ofSource (.list pairs))
  | array rs ns => do
    let items ← buildItems v rs
    let named ← buildNamed v ns
    makeContainer v .array ⟨[.list items], named⟩
  | dictionary es ns => do
    let pairs ← buildEntries v es
    let named ← buildNamed v ns
    makeContainer v .dictionary ⟨[.list pairs], named⟩
  | struct rs ns => do
    let items ← buildItems v rs
    let named ← buildNamed v ns
    makeContainer v .struct ⟨[.list items], named⟩
termination_by structural r => r

def buildItems (v : Validator) : List Recipe → Except Fault (List Value)
  | [] => .ok []
  | r :: rs => do
    let x ← build v r
    return x :: (← buildItems v rs)
termination_by structural rs => rs

def buildEntries (v : Validator) : List (Recipe × Recipe) → Except Fault (List Value)
  | [] => .ok []
  | (r, s) :: rest => do
    let x ← build v r
    let y ← build v s
    return .tuple [x, y] :: (← buildEntries v rest)
termination_by structural rest => rest

def buildNamed (v : Validator) : List (String × Recipe) → Except Fault (List (String × Value))
  | [] => .ok []
  | (name, r) :: rest => do
    let x ← build v r
    return (name, x) :: (← buildNamed v rest)
termination_by structural rest => rest

end

end Recipe

end DBusHost
