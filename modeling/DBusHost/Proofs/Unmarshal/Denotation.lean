import DBusHost.Proofs.Unmarshal.Return

/-!
# What a body denotes

The value of an item can be told from its type and its content alone, without a reader that
moves: a basic value is what its cell holds, an array or a struct has the values of its items,
and a dictionary has the values of its entries with those of the same key merged.  Variants
that are nested directly are taken together, and what is inside a container starts at level
zero.

While no native routine fails, this is what the items of a well-formed body are read as.
-/

namespace DBusHost

/-! ## Merged entries -/

namespace Entries

/-- The pairs with another key. -/
def others (k : Value) (fs : List (Value × Value)) : List (Value × Value) :=
  fs.filter fun f => !f.1.same k

/-- The value in the last of the pairs with the same key, or else the given one. -/
def lastValue (k x : Value) (fs : List (Value × Value)) : Value :=
  (((fs.filter fun f => f.1.same k).getLast?).map Prod.snd).getD x

/-- Pairs are merged: each key stands where it came first, with the value that came last. -/
inductive Merged : List (Value × Value) → List (Value × Value) → Prop
  | nil : Merged [] []
  | cons {k x : Value} {fs es : List (Value × Value)} (h : Merged (others k fs) es) :
      Merged ((k, x) :: fs) ((k, lastValue k x fs) :: es)

theorem length_others_le (k : Value) (fs : List (Value × Value)) :
    (others k fs).length ≤ fs.length := List.length_filter_le _ _

theorem lastValue_cons_of_same {k x : Value} {f : Value × Value} {fs : List (Value × Value)}
    (h : f.1.same k = true) : lastValue k x (f :: fs) = lastValue k f.2 fs := by
  simp only [lastValue, List.filter_cons, h, if_true, List.getLast?_cons, Option.map_some]
  cases (fs.filter fun f => f.1.same k).getLast? <;> rfl

theorem lastValue_cons_of_not_same {k x : Value} {f : Value × Value}
    {fs : List (Value × Value)} (h : f.1.same k = false) :
    lastValue k x (f :: fs) = lastValue k x fs := by
  simp [lastValue, h]

/-- The first entry takes every value of its key, and the others go past it. -/
theorem foldl_insert_cons (fs es : List (Value × Value)) (k x : Value) :
    fs.foldl (fun es f => insert es f.1 f.2) ((k, x) :: es) =
      (k, lastValue k x fs) :: (others k fs).foldl (fun es f => insert es f.1 f.2) es := by
  induction fs generalizing x es with
  | nil => rfl
  | cons f fs ih =>
      by_cases hsame : f.1.same k = true
      · rw [lastValue_cons_of_same hsame]
        simp only [List.foldl_cons, insert, hsame, if_true, ih, others, List.filter_cons,
          Bool.not_true, Bool.false_eq_true, if_false]
      · rw [Bool.not_eq_true] at hsame
        rw [lastValue_cons_of_not_same hsame]
        simp only [List.foldl_cons, insert, hsame, Bool.false_eq_true, if_false, ih, others,
          List.filter_cons, Bool.not_false, if_true]

theorem ofPairs_cons (f : Value × Value) (fs : List (Value × Value)) :
    ofPairs (f :: fs) = (f.1, lastValue f.1 f.2 fs) :: ofPairs (others f.1 fs) :=
  foldl_insert_cons fs [] f.1 f.2

/-- Putting pairs into a map one after the other merges them. -/
theorem merged_ofPairs : (fs : List (Value × Value)) → Merged fs (ofPairs fs)
  | [] => .nil
  | f :: fs => by
      rw [ofPairs_cons]
      exact .cons (merged_ofPairs (others f.1 fs))
termination_by fs => fs.length
decreasing_by exact Nat.lt_succ_of_le (length_others_le f.1 fs)

theorem Merged.eq_ofPairs {fs es : List (Value × Value)} (h : Merged fs es) :
    es = ofPairs fs := by
  induction h with
  | nil => rfl
  | cons _ ih => rw [ofPairs_cons, ih]

end Entries

/-! ## The value of an item -/

/-- The value of a cell of a basic type. -/
def BasicType.Denotes (c : Scalar) (y : Value) : BasicType → Prop
  | byte | int16 | uint16 | int32 | uint32 | int64 | uint64 => ∃ i, c = .integer i ∧ y = .int i
  | boolean => ∃ b : Bool, c = .integer b.toInt ∧ y = .bool b
  | double => ∃ d, c = .double d ∧ y = .double d
  | string => ∃ s, c = .string s ∧ y = .text s
  | objectPath => ∃ s, c = .string s ∧ y = .path s
  | signature => ∃ s, c = .string s ∧ y = .signature ⟨s⟩
  | unixFd => ∃ i, c = .integer i ∧ y = .descriptor i

mutual

/-- The value of an item of a type that is inside a number of variants. -/
inductive Item.Denotes : Nat → SigType → Item → Value → Prop
  | basic {n : Nat} {b : BasicType} {c : Scalar} {y : Value} (hc : b.Holds c)
      (h : b.Denotes c y) : Denotes n (.basic b) (.basic b.char c) y
  | array {n : Nat} {e : SigType} {items : List Item} {ys : List Value}
      (h : DenoteAll (List.replicate items.length e) items ys) :
      Denotes n (.array e) (.array e.text items) (.array ys ⟨some ⟨e.text⟩, .count n⟩)
  | dict {n : Nat} {k : BasicType} {w : SigType} {items : List Item}
      {fs es : List (Value × Value)} (h : DenoteEntries k w items fs)
      (hmerged : Entries.Merged fs es) :
      Denotes n (.dict k w) (.array (Marshal.entryText k w) items)
        (.dictionary es ⟨some ⟨SigType.listText [.basic k, w]⟩, .count n⟩)
  | struct {n : Nat} {ts : List SigType} {items : List Item} {ys : List Value}
      (h : DenoteAll ts items ys) :
      Denotes n (.struct ts) (.struct items) (.struct ys ⟨some ⟨SigType.listText ts⟩, .count n⟩)
  | variant {n m : Nat} {t : SigType} {item : Item} {y : Value} (hplain : t ≠ .variant)
      (ht : SigType.Valid [t]) (h : Denotes (n + (m + 1)) t item y) :
      Denotes n .variant (item.wrapped (m + 1)) y

/-- The values of items of one type each, inside no variants. -/
inductive Item.DenoteAll : List SigType → List Item → List Value → Prop
  | nil : DenoteAll [] [] []
  | cons {t : SigType} {ts : List SigType} {item : Item} {items : List Item} {y : Value}
      {ys : List Value} (h : Denotes 0 t item y) (hs : DenoteAll ts items ys) :
      DenoteAll (t :: ts) (item :: items) (y :: ys)

/-- The keys and the values of dict entries, inside no variants. -/
inductive Item.DenoteEntries :
    BasicType → SigType → List Item → List (Value × Value) → Prop
  | nil {k : BasicType} {w : SigType} : DenoteEntries k w [] []
  | cons {k : BasicType} {w : SigType} {c : Scalar} {item : Item} {items : List Item}
      {x y : Value} {fs : List (Value × Value)} (hc : k.Holds c) (hkey : k.Denotes c x)
      (h : Denotes 0 w item y) (hs : DenoteEntries k w items fs) :
      DenoteEntries k w (.dictEntry [.basic k.char c, item] :: items) ((x, y) :: fs)

end

namespace BasicType

variable {v : Validator} {b : BasicType} {c : Scalar} {y : Value}

/-- The cell of a basic type has a value. -/
theorem Holds.denotes (h : b.Holds c) : ∃ y, b.Denotes c y := by
  cases hw : b.window? with
  | some w =>
      obtain ⟨i, rfl, -⟩ : ∃ i, c = .integer i ∧ w.contains i = true := by
        simpa [Holds, hw] using h
      cases b with
      | boolean | double | string | objectPath | signature => simp [window?] at hw
      | _ => exact ⟨_, i, rfl, rfl⟩
  | none =>
      cases b with
      | boolean =>
          obtain rfl | rfl : c = .integer 0 ∨ c = .integer 1 := by simpa [Holds, hw] using h
          · exact ⟨_, false, rfl, rfl⟩
          · exact ⟨_, true, rfl, rfl⟩
      | double =>
          obtain ⟨d, rfl⟩ : ∃ d, c = .double d := by simpa [Holds, hw] using h
          exact ⟨_, d, rfl, rfl⟩
      | string | objectPath | signature =>
          obtain ⟨s, rfl, -⟩ := h
          exact ⟨_, s, rfl, rfl⟩
      | _ => simp [window?] at hw

/-- The value of a cell is the one that is read from it. -/
theorem Denotes.valueIn (hv : v.Exact) (hc : b.Holds c) (h : b.Denotes c y) :
    b.valueIn v c = .ok y := by
  cases b with
  | boolean =>
      obtain ⟨truth, rfl, rfl⟩ := h
      cases truth <;> rfl
  | string | objectPath =>
      obtain ⟨s, rfl, rfl⟩ := h
      obtain ⟨_, heq, hnul⟩ := hc
      obtain rfl := Scalar.string.inj heq
      have hs := Text.beforeNul_of_hasNul_eq_false hnul
      simp [BasicType.valueIn, textIn, hs, Functor.map, Except.map]
  | signature =>
      obtain ⟨s, rfl, rfl⟩ := h
      obtain ⟨_, heq, hwell⟩ := hc
      obtain rfl := Scalar.string.inj heq
      obtain ⟨ts, rfl, hts⟩ := SigType.isWellFormed_iff.mp hwell
      have hs := Text.beforeNul_of_hasNul_eq_false (SigType.hasNul_listText ts)
      have hmade := Signature.ofText_listText hv hts
      simp [BasicType.valueIn, textIn, hs, hmade, bind, Except.bind, pure, Except.pure]
  | _ =>
      obtain ⟨a, rfl, rfl⟩ := h
      rfl

/-- The values of cells can be keys. -/
theorem Denotes.isKeyable (h : b.Denotes c y) : y.isKeyable = true := by
  cases b <;> obtain ⟨_, -, rfl⟩ := h <;> rfl

end BasicType

namespace Item

open SigType

theorem DenoteAll.length_eq : {ts : List SigType} → {items : List Item} → {ys : List Value} →
    DenoteAll ts items ys → ys.length = items.length
  | _, _, _, .nil => rfl
  | _, _, _, .cons _ hs => by rw [List.length_cons, List.length_cons, hs.length_eq]

mutual

/-- Only an item of the type has a value as that type. -/
theorem Denotes.hasType : {n : Nat} → {t : SigType} → {item : Item} → {y : Value} →
    Denotes n t item y → HasType t item
  | _, _, _, _, .basic hc _ => .basic hc
  | _, _, _, _, .array h => .array h.haveTypes
  | _, _, _, _, .dict h _ => .dict h.haveEntries
  | _, _, _, _, .struct h => .struct h.haveTypes
  | _, _, _, _, .variant hplain ht h => .variant hplain ht h.hasType

theorem DenoteAll.haveTypes : {ts : List SigType} → {items : List Item} → {ys : List Value} →
    DenoteAll ts items ys → HaveTypes ts items
  | _, _, _, .nil => .nil
  | _, _, _, .cons h hs => .cons h.hasType hs.haveTypes

theorem DenoteEntries.haveEntries : {k : BasicType} → {w : SigType} → {items : List Item} →
    {fs : List (Value × Value)} → DenoteEntries k w items fs → HaveEntries k w items
  | _, _, _, _, .nil => .nil
  | _, _, _, _, .cons hc _ h hs => .cons hc h.hasType hs.haveEntries

end

mutual

/-- An item of a type has a value as that type. -/
theorem HasType.denotes : {t : SigType} → {item : Item} → HasType t item → ∀ n : Nat,
    ∃ y, Denotes n t item y
  | _, _, .basic hc, _ => by
      obtain ⟨y, hy⟩ := hc.denotes
      exact ⟨y, .basic hc hy⟩
  | _, _, .array h, _ => by
      obtain ⟨ys, hys⟩ := h.denoteAll
      exact ⟨_, .array hys⟩
  | _, _, .dict h, _ => by
      obtain ⟨fs, hfs⟩ := h.denoteEntries
      exact ⟨_, .dict hfs (Entries.merged_ofPairs fs)⟩
  | _, _, .struct h, _ => by
      obtain ⟨ys, hys⟩ := h.denoteAll
      exact ⟨_, .struct hys⟩
  | _, _, .variant (n := m) hplain ht h, n => by
      obtain ⟨y, hy⟩ := h.denotes (n + (m + 1))
      exact ⟨y, .variant hplain ht hy⟩

theorem HaveTypes.denoteAll : {ts : List SigType} → {items : List Item} →
    HaveTypes ts items → ∃ ys, DenoteAll ts items ys
  | _, _, .nil => ⟨[], .nil⟩
  | _, _, .cons h hs => by
      obtain ⟨y, hy⟩ := h.denotes 0
      obtain ⟨ys, hys⟩ := hs.denoteAll
      exact ⟨y :: ys, .cons hy hys⟩

theorem HaveEntries.denoteEntries : {k : BasicType} → {w : SigType} → {items : List Item} →
    HaveEntries k w items → ∃ fs, DenoteEntries k w items fs
  | _, _, _, .nil => ⟨[], .nil⟩
  | _, _, _, .cons hc h hs => by
      obtain ⟨x, hx⟩ := hc.denotes
      obtain ⟨y, hy⟩ := h.denotes 0
      obtain ⟨fs, hfs⟩ := hs.denoteEntries
      exact ⟨(x, y) :: fs, .cons hc hx hy hfs⟩

end

theorem DenoteEntries.isKeyable : {k : BasicType} → {w : SigType} → {items : List Item} →
    {fs : List (Value × Value)} → DenoteEntries k w items fs → ∀ f ∈ fs, f.1.isKeyable = true
  | _, _, _, _, .nil => by simp
  | _, _, _, _, .cons _ hkey _ hs => by
      simpa [hkey.isKeyable] using fun a b => hs.isKeyable (a, b)

end Item

/-! ## Reading gives the value -/

namespace Item

open Attempt SigType

variable {v : Validator}

mutual

/-- While no native routine fails, an item of a valid type is read as its value. -/
theorem Denotes.gives_read (hv : v.Exact) : {n : Nat} → {t : SigType} → {item : Item} →
    {y : Value} → Denotes n t item y → Valid [t] →
    Gives (Unmarshal.read v (.int n) item) y
  | _, _, _, _, .basic hc h, _ => Unmarshal.gives_read_basic _ (h.valueIn hv hc)
  | _, _, _, _, .array h, ht => by
      have hread := h.gives_readEach hv fun t ht' => List.eq_of_mem_replicate ht' ▸ ht.element
      have hs := Signature.ofText_listText hv ht.element
      rw [listText_singleton] at hs
      exact Unmarshal.gives_read_array _ hs hread
  | _, _, _, _, .dict h hmerged, ht => by
      have hread := h.gives_readEntries hv ht.entry
      have hs := Signature.ofText_listText hv ht.entry
      rw [hmerged.eq_ofPairs]
      exact Unmarshal.gives_read_dict _ hs h.isKeyable hread
  | _, _, _, _, .struct h, ht => by
      have hread := h.gives_readEach hv ht.fields.of_mem
      have hs := Signature.ofText_listText hv ht.fields
      exact Unmarshal.gives_read_struct _ h.haveTypes.listChars hs hread
  | _, _, _, _, .variant _ ht h, _ => Unmarshal.gives_read_wrapped _ _ (h.gives_read hv ht)

theorem DenoteAll.gives_readEach (hv : v.Exact) : {ts : List SigType} → {items : List Item} →
    {ys : List Value} → DenoteAll ts items ys → (∀ t ∈ ts, Valid [t]) →
    Gives (Unmarshal.readEach v items) ys
  | _, _, _, .nil, _ => gives_pure []
  | _, _, _, .cons h hs, hts => by
      have hread := h.gives_read hv (hts _ (by simp))
      have hreads := hs.gives_readEach hv fun t ht => hts t (by simp [ht])
      rw [Unmarshal.readEach]
      exact hread.insideIteration.bind (hreads.bind (gives_pure _))

theorem DenoteEntries.gives_readEntries (hv : v.Exact) : {k : BasicType} → {w : SigType} →
    {items : List Item} → {fs : List (Value × Value)} → DenoteEntries k w items fs →
    Valid [.basic k, w] →
    Gives (Unmarshal.readEntries v items) (fs.map fun f => .tuple [f.1, f.2])
  | _, _, _, _, .nil, _ => gives_pure []
  | _, _, _, _, .cons hc hkey h hs, hkw => by
      have hread := h.gives_read hv hkw.tail
      have hreads := hs.gives_readEntries hv hkw
      exact Unmarshal.gives_readEntries_cons (Unmarshal.gives_read_basic 0 (hkey.valueIn hv hc))
        hread hreads

end

end Item

end DBusHost
