/-!
# Tables

A table is a list of entries with keys; of several entries with one key the first
counts.  Entries that are put in go in front.
-/

namespace DBusHost

/-- A finite map. -/
abbrev Table (κ α : Type) := List (κ × α)

namespace Table

variable {κ α : Type} [DecidableEq κ]

def get? (t : Table κ α) (k : κ) : Option α :=
  (t.find? fun e => e.1 = k).map Prod.snd

def erase (t : Table κ α) (k : κ) : Table κ α := t.filter fun e => e.1 ≠ k

/-- The table with a new value for a key. -/
def put (t : Table κ α) (k : κ) (x : α) : Table κ α := (k, x) :: t.erase k

/-- The table with a value for a key, unless the key has one. -/
def putNew (t : Table κ α) (k : κ) (x : α) : Table κ α :=
  if (t.get? k).isSome then t else t.put k x

/-- The keys whose value is of a kind. -/
def keysWhere (t : Table κ α) (p : α → Bool) : List κ :=
  (t.filter fun e => p e.2).map Prod.fst

@[simp] theorem get?_nil (k : κ) : get? ([] : Table κ α) k = none := rfl

theorem get?_cons (e : κ × α) (t : Table κ α) (k : κ) :
    get? (e :: t) k = if e.1 = k then some e.2 else get? t k := by
  by_cases h : e.1 = k <;> simp [get?, h]

theorem get?_erase (t : Table κ α) (k l : κ) :
    (t.erase k).get? l = if k = l then none else t.get? l := by
  induction t with
  | nil => simp [erase]
  | cons e t ih =>
    have step : erase (e :: t) k = if e.1 = k then erase t k else e :: erase t k := by
      by_cases h : e.1 = k <;> simp [erase, h]
    rw [step, get?_cons]
    split <;> (try rw [get?_cons]) <;> grind

theorem get?_put (t : Table κ α) (k l : κ) (x : α) :
    (t.put k x).get? l = if k = l then some x else t.get? l := by
  rw [put, get?_cons, get?_erase]
  split <;> rfl

end Table

end DBusHost
