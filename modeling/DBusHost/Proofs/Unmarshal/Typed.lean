import DBusHost.Message.Unmarshal
import DBusHost.Proofs.Marshal.Encoding

/-!
# Well-formed bodies

An item has a type if its cells hold what the basic types admit, every container has the
contents that it says it has, and the contents of each variant have one valid type.  Variants
that are nested directly are taken together, so that what is in them is not a variant.

`Item.Everywhere P items` says that `P` holds for the items and for all that is inside them.
Two bodies that differ at most in the payloads of their NaNs have the same canonical form.
-/

namespace DBusHost

/-- What the cell of a basic type may hold: integers of the type's window, a truth value as
zero or one, any double, a text without a nul, and a well-formed signature. -/
def BasicType.Holds (c : Scalar) (b : BasicType) : Prop :=
  match b.window? with
  | some w => ∃ i, c = .integer i ∧ w.contains i = true
  | none => match b with
    | boolean => c = .integer 0 ∨ c = .integer 1
    | double => ∃ x, c = .double x
    | signature => ∃ s, c = .string s ∧ isWellFormed s = true
    | _ => ∃ s, c = .string s ∧ Text.hasNul s = false

mutual

/-- The item has the type. -/
inductive Item.HasType : SigType → Item → Prop
  | basic {b : BasicType} {c : Scalar} (h : b.Holds c) : HasType (.basic b) (.basic b.char c)
  | array {e : SigType} {items : List Item}
      (h : HaveTypes (List.replicate items.length e) items) :
      HasType (.array e) (.array e.text items)
  | dict {k : BasicType} {w : SigType} {items : List Item} (h : HaveEntries k w items) :
      HasType (.dict k w) (.array (Marshal.entryText k w) items)
  | struct {fs : List SigType} {items : List Item} (h : HaveTypes fs items) :
      HasType (.struct fs) (.struct items)
  | variant {n : Nat} {t : SigType} {item : Item} (hplain : t ≠ .variant)
      (ht : SigType.Valid [t]) (h : HasType t item) : HasType .variant (item.wrapped (n + 1))

/-- The items have one type each. -/
inductive Item.HaveTypes : List SigType → List Item → Prop
  | nil : HaveTypes [] []
  | cons {t : SigType} {ts : List SigType} {item : Item} {items : List Item}
      (h : HasType t item) (hs : HaveTypes ts items) : HaveTypes (t :: ts) (item :: items)

/-- The items are dict entries with keys of a basic type and values of a type. -/
inductive Item.HaveEntries : BasicType → SigType → List Item → Prop
  | nil {k : BasicType} {w : SigType} : HaveEntries k w []
  | cons {k : BasicType} {w : SigType} {c : Scalar} {item : Item} {items : List Item}
      (hkey : k.Holds c) (h : HasType w item) (hs : HaveEntries k w items) :
      HaveEntries k w (.dictEntry [.basic k.char c, item] :: items)

end

namespace Item

/-! ## Properties of all items -/

/-- The item is among the items or inside one of them. -/
inductive Among (y : Item) : List Item → Prop
  | self {items : List Item} (h : y ∈ items) : Among y items
  | inside {item : Item} {items : List Item} (hitem : item ∈ items)
      (h : Among y item.inside) : Among y items

/-- All items, and all that is inside them, have a property. -/
def Everywhere (P : Item → Prop) (items : List Item) : Prop := ∀ y, Among y items → P y

variable {P : Item → Prop} {item : Item} {items : List Item}

theorem everywhere_nil : Everywhere P [] := by
  intro y hy
  cases hy with
  | self h => simp at h
  | inside h _ => simp at h

theorem everywhere_cons : Everywhere P (item :: items) ↔
    Everywhere P [item] ∧ Everywhere P items := by
  constructor
  · refine fun h => ⟨fun y hy => h y ?_, fun y hy => h y ?_⟩
    · cases hy with
      | self hy => exact .self (by simp_all)
      | inside hitem hy => exact .inside (by simp_all) hy
    · cases hy with
      | self hy => exact .self (by simp [hy])
      | inside hitem hy => exact .inside (by simp [hitem]) hy
  · rintro ⟨hitem, hitems⟩ y hy
    cases hy with
    | self hy =>
        obtain rfl | hy := List.mem_cons.mp hy
        · exact hitem y (.self (by simp))
        · exact hitems y (.self hy)
    | inside hmem hy =>
        obtain rfl | hmem := List.mem_cons.mp hmem
        · exact hitem y (.inside (by simp) hy)
        · exact hitems y (.inside hmem hy)

theorem everywhere_singleton :
    Everywhere P [item] ↔ P item ∧ Everywhere P item.inside := by
  constructor
  · exact fun h => ⟨h item (.self (by simp)), fun y hy => h y (.inside (by simp) hy)⟩
  · rintro ⟨hitem, hinside⟩ y hy
    cases hy with
    | self hy =>
        obtain rfl := List.mem_singleton.mp hy
        exact hitem
    | inside hmem hy =>
        obtain rfl := List.mem_singleton.mp hmem
        exact hinside y hy

theorem everywhere_wrapped (n : Nat) : Everywhere P [item.wrapped n] ↔
    (∀ m < n, P (item.wrapped (m + 1))) ∧ Everywhere P [item] := by
  induction n with
  | zero => simp [wrapped]
  | succ n ih =>
      have hinside : (item.wrapped (n + 1)).inside = [item.wrapped n] := rfl
      rw [everywhere_singleton, hinside, ih, ← and_assoc]
      refine and_congr_left fun _ => ⟨?_, fun h => ⟨h n (Nat.lt_succ_self n), ?_⟩⟩
      · rintro ⟨hn, h⟩ m hm
        obtain hm | rfl := Nat.lt_succ_iff_lt_or_eq.mp hm
        · exact h m hm
        · exact hn
      · exact fun m hm => h m (Nat.lt_succ_of_lt hm)

end Item

/-! ## Bodies up to the payloads of NaNs -/

/-- A NaN is replaced by the one that is written. -/
def Scalar.canonical : Scalar → Scalar
  | double x => double x.canonical
  | c => c

mutual

def Item.canonical : Item → Item
  | basic type content => basic type content.canonical
  | array element items => array element (listCanonical items)
  | struct items => struct (listCanonical items)
  | dictEntry items => dictEntry (listCanonical items)
  | variant items => variant (listCanonical items)
termination_by structural item => item

def Item.listCanonical : List Item → List Item
  | [] => []
  | item :: items => item.canonical :: listCanonical items
termination_by structural items => items

end

namespace Item

theorem listCanonical_eq_map (items : List Item) : listCanonical items = items.map canonical := by
  induction items with
  | nil => rfl
  | cons item items ih => rw [listCanonical, ih, List.map_cons]

theorem canonical_wrapped (item : Item) (n : Nat) :
    (item.wrapped n).canonical = item.canonical.wrapped n := by
  induction n with
  | zero => rfl
  | succ n ih => simp [wrapped, canonical, listCanonical, ih]

theorem length_eq_of_listCanonical {items rest : List Item}
    (h : listCanonical items = listCanonical rest) : items.length = rest.length := by
  have hlength := congrArg List.length h
  simpa only [listCanonical_eq_map, List.length_map] using hlength

/-! ## What survives being read and written again -/

/-- The value of the key, if the item is a dict entry. -/
def key? (v : Validator) : Item → Option Value
  | dictEntry (basic type content :: _) => (basicValue v type content).toOption
  | _ => none

/-- The values of the keys of dict entries differ: none is the same as an earlier one. -/
def KeysDiffer (v : Validator) (items : List Item) : Prop :=
  (items.filterMap (key? v)).Pairwise fun k k' => k'.same k = false

/-- If the item is an array of dict entries, its keys differ.  If it is a basic value in
variants, it is in one only, and of the type that is guessed for its value. -/
structure Survives (v : Validator) (item : Item) : Prop where
  keys : ∀ element items, item = .array element items → KeysDiffer v items
  basics : ∀ n type content, item = (Item.basic type content).wrapped (n + 1) →
    n = 0 ∧ type ∈ ['b', 'i', 'd', 's', 'o', 'g', 'h']

variable {v : Validator} {t : SigType} {item : Item}

theorem wrapped_left_inj {item' : Item} {n : Nat} (h : item.wrapped n = item'.wrapped n) :
    item = item' := by
  induction n with
  | zero => exact h
  | succ n ih => exact ih (by simpa [wrapped] using h)

/-- An item that is no variant and the number of variants around it can be told. -/
theorem wrapped_inj {item' : Item} {m n : Nat} (hitem : ∀ items, item ≠ .variant items)
    (hitem' : ∀ items, item' ≠ .variant items) (h : item.wrapped m = item'.wrapped n) :
    m = n ∧ item = item' := by
  induction m generalizing n with
  | zero =>
      cases n with
      | zero => exact ⟨rfl, h⟩
      | succ n => exact absurd h (hitem _)
  | succ m ih =>
      cases n with
      | zero => exact absurd h.symm (hitem' _)
      | succ n =>
          obtain ⟨rfl, rfl⟩ := ih (n := n) (by simpa [wrapped] using h)
          exact ⟨rfl, rfl⟩

/-! ### Survival of the parts -/

theorem everywhere_survives_basic (type : Char) (content : Scalar) :
    Everywhere (Survives v) [.basic type content] := by
  refine everywhere_singleton.mpr ⟨⟨by simp, ?_⟩, everywhere_nil⟩
  intro n type' content' h
  simp [wrapped] at h

theorem everywhere_survives_array {element : String} {items : List Item} :
    Everywhere (Survives v) [.array element items] ↔
      KeysDiffer v items ∧ Everywhere (Survives v) items := by
  refine everywhere_singleton.trans (and_congr_left fun _ => ?_)
  refine ⟨fun h => h.keys element items rfl, fun h => ⟨?_, by simp [wrapped]⟩⟩
  intro element' items' heq
  obtain ⟨-, rfl⟩ := Item.array.inj heq
  exact h

theorem everywhere_survives_struct {items : List Item} :
    Everywhere (Survives v) [.struct items] ↔ Everywhere (Survives v) items :=
  everywhere_singleton.trans (and_iff_right ⟨by simp, by simp [wrapped]⟩)

theorem everywhere_survives_dictEntry {items : List Item} :
    Everywhere (Survives v) [.dictEntry items] ↔ Everywhere (Survives v) items :=
  everywhere_singleton.trans (and_iff_right ⟨by simp, by simp [wrapped]⟩)

theorem everywhere_survives_wrapped (hitem : ∀ items, item ≠ .variant items) (n : Nat) :
    Everywhere (Survives v) [item.wrapped (n + 1)] ↔
      (∀ type content, item = .basic type content →
        n = 0 ∧ type ∈ ['b', 'i', 'd', 's', 'o', 'g', 'h']) ∧
      Everywhere (Survives v) [item] := by
  refine (everywhere_wrapped (n + 1)).trans (and_congr_left fun _ => ⟨fun h => ?_, fun h => ?_⟩)
  · rintro type content rfl
    exact (h n (Nat.lt_succ_self n)).basics n type content rfl
  · intro m hm
    refine ⟨by simp [wrapped], fun k type content heq => ?_⟩
    obtain ⟨hmk, rfl⟩ := wrapped_inj hitem (by simp) heq
    obtain ⟨rfl, htype⟩ := h type content rfl
    exact ⟨by omega, htype⟩

/-- Only dict entries have keys. -/
theorem HasType.key?_eq_none (h : HasType t item) : item.key? v = none := by
  cases h <;> rfl

theorem HaveTypes.filterMap_key? : {ts : List SigType} → {items : List Item} →
    HaveTypes ts items → items.filterMap (key? v) = []
  | _, _, .nil => rfl
  | _, _, .cons h hs => by
      rw [List.filterMap_cons_none h.key?_eq_none, hs.filterMap_key?]

theorem HaveTypes.keysDiffer {ts : List SigType} {items : List Item} (h : HaveTypes ts items) :
    KeysDiffer v items := by
  rw [KeysDiffer, h.filterMap_key?]
  exact .nil

end Item

mutual

theorem Item.HasType.chars : {t : SigType} → {item : Item} → HasType t item →
    item.chars = t.chars
  | _, _, .basic _ => rfl
  | _, _, .array _ => by simp [Item.chars, SigType.chars, SigType.text]
  | _, _, .dict _ => by simp [Item.chars, SigType.chars, Marshal.entryText]
  | _, _, .struct h => by simp [Item.chars, SigType.chars, h.listChars]
  | _, _, .variant _ _ _ => Item.chars_wrapped _ _

/-- The text of a body is the text of its types. -/
theorem Item.HaveTypes.listChars : {ts : List SigType} → {items : List Item} →
    HaveTypes ts items → Item.listChars items = SigType.listChars ts
  | _, _, .nil => rfl
  | _, _, .cons h hs => by simp [Item.listChars, SigType.listChars, h.chars, hs.listChars]

end

end DBusHost
