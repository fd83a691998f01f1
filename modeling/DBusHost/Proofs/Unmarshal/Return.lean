import DBusHost.Message.Basic
import DBusHost.Proofs.Unmarshal.Decoding
import DBusHost.Proofs.Unmarshal.Typed

/-!
# Reading and writing again

The value that is read from an item need not be written as that item again.  A dictionary
keeps one entry of those with the same key, and a basic value in a variant keeps neither the
number of variants nor the width of an integer.  Nothing else is lost: typed containers know
the types of their contents and the number of variants around them.

An induction over the types of a body shows that it is written as it was if and only if none of
this happens anywhere in it.
-/

namespace DBusHost

/-! ## Maps with keys that differ -/

namespace Entries

theorem insert_eq_append {es : List (Value × Value)} {k x : Value}
    (h : ∀ e ∈ es, k.same e.1 = false) : insert es k x = es ++ [(k, x)] := by
  induction es with
  | nil => rfl
  | cons e es ih =>
      have hrest := ih fun f hf => h f (by simp [hf])
      simp [insert, h e (by simp), hrest]

/-- A key that is there already gets no entry of its own. -/
theorem length_insert_of_mem {es : List (Value × Value)} {k x : Value}
    (h : ∃ e ∈ es, k.same e.1 = true) : (insert es k x).length = es.length := by
  induction es with
  | nil => simp at h
  | cons e es ih =>
      by_cases he : k.same e.1 = true
      · simp [insert, he]
      · have hrest : ∃ f ∈ es, k.same f.1 = true := by simpa [he] using h
        simp [insert, he, ih hrest]

theorem length_insert_le_succ (es : List (Value × Value)) (k x : Value) :
    (insert es k x).length ≤ es.length + 1 := by
  by_cases h : ∃ e ∈ es, k.same e.1 = true
  · rw [length_insert_of_mem h]
    exact Nat.le_succ _
  · have hfresh : ∀ e ∈ es, k.same e.1 = false := by simpa using h
    rw [insert_eq_append hfresh]
    simp

theorem length_foldl_insert_le (fs es : List (Value × Value)) :
    (fs.foldl (fun es f => insert es f.1 f.2) es).length ≤ es.length + fs.length := by
  induction fs generalizing es with
  | nil => simp
  | cons f fs ih =>
      have hinsert := length_insert_le_succ es f.1 f.2
      have hrest := ih (insert es f.1 f.2)
      simp only [List.foldl_cons, List.length_cons]
      omega

/-- Pairs with keys that differ from one another and from those that are there are put behind
them. -/
theorem foldl_insert_eq_append {fs es : List (Value × Value)}
    (h : ∀ f ∈ fs, ∀ e ∈ es, f.1.same e.1 = false)
    (hfs : fs.Pairwise fun f f' => f'.1.same f.1 = false) :
    fs.foldl (fun es f => insert es f.1 f.2) es = es ++ fs := by
  induction fs generalizing es with
  | nil => simp
  | cons f fs ih =>
      obtain ⟨hf, hrest⟩ := List.pairwise_cons.mp hfs
      rw [List.foldl_cons, insert_eq_append (h f (by simp))]
      rw [ih ?_ hrest]
      · simp
      · intro f' hf' e he
        obtain he | rfl := by simpa using he
        · exact h f' (by simp [hf']) e he
        · exact hf f' hf'

/-- If every pair gets an entry of its own, the keys differ. -/
theorem pairwise_of_length_foldl {fs es : List (Value × Value)}
    (h : (fs.foldl (fun es f => insert es f.1 f.2) es).length = es.length + fs.length) :
    (∀ f ∈ fs, ∀ e ∈ es, f.1.same e.1 = false) ∧
      fs.Pairwise fun f f' => f'.1.same f.1 = false := by
  induction fs generalizing es with
  | nil => simp
  | cons f fs ih =>
      have hle := length_foldl_insert_le fs (insert es f.1 f.2)
      have hfresh : ∀ e ∈ es, f.1.same e.1 = false := by
        by_contra hnot
        have hlength := length_insert_of_mem (x := f.2) (by simpa using hnot)
        simp only [List.foldl_cons, List.length_cons] at h
        omega
      rw [List.foldl_cons, insert_eq_append hfresh] at h
      have hlength : (fs.foldl (fun es f => insert es f.1 f.2) (es ++ [(f.1, f.2)])).length =
          (es ++ [(f.1, f.2)]).length + fs.length := by
        simp only [List.length_append, List.length_cons, List.length_nil] at h ⊢
        omega
      obtain ⟨hes, hfs⟩ := ih hlength
      refine ⟨?_, List.pairwise_cons.mpr ⟨fun f' hf' => hes f' hf' (f.1, f.2) (by simp), hfs⟩⟩
      intro f' hf' e he
      obtain rfl | hf' := List.mem_cons.mp hf'
      · exact hfresh e he
      · exact hes f' hf' e (by simp [he])

theorem ofPairs_eq_self {fs : List (Value × Value)}
    (h : fs.Pairwise fun f f' => f'.1.same f.1 = false) : ofPairs fs = fs :=
  foldl_insert_eq_append (by simp) h

theorem pairwise_of_length_ofPairs {fs : List (Value × Value)}
    (h : (ofPairs fs).length = fs.length) : fs.Pairwise fun f f' => f'.1.same f.1 = false :=
  have hlength : (fs.foldl (fun es f => insert es f.1 f.2) []).length =
      ([] : List (Value × Value)).length + fs.length := by simpa [ofPairs] using h
  (pairwise_of_length_foldl hlength).2

end Entries

/-! ## Basic values -/

namespace BasicType

/-- The type that is guessed for the values of a basic type. -/
def guessed : BasicType → BasicType
  | byte | int16 | uint16 | int32 | uint32 | int64 | uint64 => int32
  | b => b

theorem guessed_eq_self_iff {b : BasicType} :
    b.guessed = b ↔ b.char ∈ ['b', 'i', 'd', 's', 'o', 'g', 'h'] := by
  cases b <;> decide

variable {v : Validator} {b : BasicType} {c : Scalar} {x : Value}

/-- An integer of the window of a type is kept by its cell. -/
theorem cell_of_contains {w : IntWindow} {i : Int} (hw : b.window? = some w)
    (hx : x.integer? = some i) (hi : w.contains i = true) : b.cell v x = .ok (.integer i) := by
  have hbits := bits_of_window? hw
  have hcheck := (Value.checkInteger_eq_ok_iff hbits).mpr ⟨hx, hi⟩
  have hstore : cell.stored b i = i := by
    simp only [cell.stored, storage_of_window? hw]
    exact IntWindow.store_of_contains hbits.1 hi
  simp only [cell, hw, hcheck, bind, Except.bind, hstore]
  rfl

/-- What the cell of a basic type holds is read as a value that has the same cell. -/
theorem Holds.read (hv : v.Exact) (h : b.Holds c) : ∃ y, b.valueIn v c = .ok y ∧
    b.cell v y = .ok c ∧ y.level = 0 ∧
    y.guessPlain v = .ok (SigType.basic b.guessed).text ∧ y.isKeyable = true := by
  cases hw : b.window? with
  | some w =>
      obtain ⟨i, rfl, hi⟩ : ∃ i, c = .integer i ∧ w.contains i = true := by
        simpa [Holds, hw] using h
      cases b with
      | unixFd => exact ⟨.descriptor i, rfl, cell_of_contains hw rfl hi, rfl, rfl, rfl⟩
      | boolean | double | string | objectPath | signature => simp [window?] at hw
      | _ => exact ⟨.int i, rfl, cell_of_contains hw rfl hi, rfl, rfl, rfl⟩
  | none =>
      cases b with
      | boolean =>
          obtain rfl | rfl : c = .integer 0 ∨ c = .integer 1 := by simpa [Holds, hw] using h
          · exact ⟨.bool false, rfl, rfl, rfl, rfl, rfl⟩
          · exact ⟨.bool true, rfl, rfl, rfl, rfl, rfl⟩
      | double =>
          obtain ⟨d, rfl⟩ : ∃ d, c = .double d := by simpa [Holds, hw] using h
          exact ⟨.double d, rfl, rfl, rfl, rfl, rfl⟩
      | string =>
          obtain ⟨s, rfl, hnul⟩ : ∃ s, c = .string s ∧ Text.hasNul s = false := by
            simpa [Holds, hw] using h
          have hs := Text.beforeNul_of_hasNul_eq_false hnul
          refine ⟨.text s, ?_, cell_of_text rfl hnul (by simp), rfl, rfl, rfl⟩
          simp [valueIn, textIn, hs, Functor.map, Except.map]
      | objectPath =>
          obtain ⟨s, rfl, hnul⟩ : ∃ s, c = .string s ∧ Text.hasNul s = false := by
            simpa [Holds, hw] using h
          have hs := Text.beforeNul_of_hasNul_eq_false hnul
          refine ⟨.path s, ?_, cell_of_text rfl hnul (by simp), rfl, rfl, rfl⟩
          simp [valueIn, textIn, hs, Functor.map, Except.map]
      | signature =>
          obtain ⟨s, rfl, hwell⟩ : ∃ s, c = .string s ∧ isWellFormed s = true := by
            simpa [Holds, hw] using h
          obtain ⟨ts, rfl, hts⟩ := SigType.isWellFormed_iff.mp hwell
          have hs := Text.beforeNul_of_hasNul_eq_false (SigType.hasNul_listText ts)
          have hmade := Signature.ofText_listText hv hts
          refine ⟨.signature ⟨SigType.listText ts⟩, ?_, ?_, rfl, rfl, rfl⟩
          · simp [valueIn, textIn, hs, hmade, bind, Except.bind, pure, Except.pure]
          · simp [cell, window?, Signature.ofValue, hs, bind, Except.bind, pure, Except.pure]
      | _ => simp [window?] at hw

end BasicType

/-! ## Items that return -/

open Attempt Item SigType

/-- What is guessed for a value that is read from an item in a number of variants: the type of
a container, with the variants around it, and some type of its own for a basic value. -/
def Guessed (v : Validator) (n : Nat) (y : Value) : SigType → Prop
  | .basic b => y.level = 0 ∧ y.guessPlain v = .ok (SigType.basic b.guessed).text
  | .variant => True
  | t => y.level = n ∧ y.guessPlain v = .ok t.text

/-- The value is written as the item if all of the item survives, and is written as an item
with the same canonical form only then. -/
structure Returns (v : Validator) (t : SigType) (y : Value) (item : Item) : Prop where
  encodes : Everywhere (Survives v) [item] → Encodes v t y item
  survives : ∀ item', Encodes v t y item' → item'.canonical = item.canonical →
    Everywhere (Survives v) [item]

structure ReturnsAll (v : Validator) (ts : List SigType) (ys : List Value)
    (items : List Item) : Prop where
  encodes : Everywhere (Survives v) items → EncodesAll v ts ys items
  survives : ∀ items', EncodesAll v ts ys items' →
    listCanonical items' = listCanonical items → Everywhere (Survives v) items

structure ReturnsEntries (v : Validator) (k : BasicType) (w : SigType)
    (fs : List (Value × Value)) (items : List Item) : Prop where
  encodes : Everywhere (Survives v) items → EncodesEntries v k w fs items
  survives : ∀ items', EncodesEntries v k w fs items' →
    listCanonical items' = listCanonical items → Everywhere (Survives v) items

variable {v : Validator}

theorem returns_basic {b : BasicType} {c : Scalar} {y : Value} (h : b.cell v y = .ok c) :
    Returns v (.basic b) y (.basic b.char c) :=
  ⟨fun _ => .basic h, fun _ _ _ => everywhere_survives_basic _ _⟩

theorem ReturnsAll.array {e : SigType} {ys : List Value} {items : List Item} {tag : Tag}
    (hkeys : KeysDiffer v items) (h : ReturnsAll v (List.replicate ys.length e) ys items) :
    Returns v (.array e) (.array ys tag) (.array e.text items) := by
  refine ⟨fun hall => ?_, fun item' hitem' heq => ?_⟩
  · exact .array rfl (h.encodes (everywhere_survives_array.mp hall).2)
  · cases hitem' with
    | array hx hitems =>
        obtain rfl : ys = _ := Option.some.inj hx
        exact everywhere_survives_array.mpr
          ⟨hkeys, h.survives _ hitems (Item.array.inj heq).2⟩

theorem ReturnsAll.struct {fs : List SigType} {ys : List Value} {items : List Item} {tag : Tag}
    (h : ReturnsAll v fs ys items) : Returns v (.struct fs) (.struct ys tag) (.struct items) := by
  refine ⟨fun hall => ?_, fun item' hitem' heq => ?_⟩
  · exact .struct rfl (h.encodes (everywhere_survives_struct.mp hall))
  · cases hitem' with
    | struct hx hitems =>
        obtain rfl : ys = _ := Option.some.inj hx
        exact everywhere_survives_struct.mpr (h.survives _ hitems (Item.struct.inj heq))

theorem returnsAll_nil : ReturnsAll v [] [] [] :=
  ⟨fun _ => .nil, fun _ _ _ => everywhere_nil⟩

theorem Returns.cons {t : SigType} {ts : List SigType} {y : Value} {ys : List Value}
    {item : Item} {items : List Item} (h : Returns v t y item)
    (hs : ReturnsAll v ts ys items) : ReturnsAll v (t :: ts) (y :: ys) (item :: items) := by
  refine ⟨fun hall => ?_, fun items' hitems' heq => ?_⟩
  · obtain ⟨hitem, hitems⟩ := everywhere_cons.mp hall
    exact .cons (h.encodes hitem) (hs.encodes hitems)
  · cases hitems' with
    | cons hitem hrest =>
        obtain ⟨hhead, htail⟩ := List.cons.inj heq
        exact everywhere_cons.mpr ⟨h.survives _ hitem hhead, hs.survives _ hrest htail⟩

theorem key?_dictEntry {k : BasicType} {c : Scalar} {y : Value} {items : List Item}
    (h : k.valueIn v c = .ok y) :
    Item.key? v (.dictEntry (.basic k.char c :: items)) = some y := by
  simp only [key?, basicValue, BasicType.ofChar?_char, h]
  rfl

/-- A dict entry returns if its value does; a key always does. -/
theorem Returns.entry {k : BasicType} {w : SigType} {y y' : Value}
    {fs : List (Value × Value)} {c : Scalar} {item : Item} {items : List Item}
    (hkey : k.cell v y = .ok c) (h : Returns v w y' item) (hs : ReturnsEntries v k w fs items) :
    ReturnsEntries v k w ((y, y') :: fs) (.dictEntry [.basic k.char c, item] :: items) := by
  have hpair : ReturnsAll v [.basic k, w] [y, y'] [.basic k.char c, item] :=
    (returns_basic hkey).cons (h.cons returnsAll_nil)
  refine ⟨fun hall => ?_, fun items' hitems' heq => ?_⟩
  · obtain ⟨hentry, hitems⟩ := everywhere_cons.mp hall
    exact .cons (hpair.encodes (everywhere_survives_dictEntry.mp hentry)) (hs.encodes hitems)
  · cases hitems' with
    | cons hentry hrest =>
        obtain ⟨hhead, htail⟩ := List.cons.inj heq
        have hsurvives := hpair.survives _ hentry (Item.dictEntry.inj hhead)
        exact everywhere_cons.mpr
          ⟨everywhere_survives_dictEntry.mpr hsurvives, hs.survives _ hrest htail⟩

theorem EncodesEntries.length_eq {k : BasicType} {w : SigType} {es : List (Value × Value)}
    {items : List Item} (h : EncodesEntries v k w es items) : items.length = es.length := by
  induction es generalizing items with
  | nil =>
      cases h
      rfl
  | cons e es ih =>
      cases h with
      | cons _ hs => rw [List.length_cons, List.length_cons, ih hs]

/-- Entries return as a dictionary if their keys differ.  Otherwise some of them are lost. -/
theorem ReturnsEntries.dict {k : BasicType} {w : SigType} {fs : List (Value × Value)}
    {items : List Item} {tag : Tag} (hkeys : items.filterMap (key? v) = fs.map Prod.fst)
    (hlength : items.length = fs.length) (h : ReturnsEntries v k w fs items) :
    Returns v (.dict k w) (.dictionary (Entries.ofPairs fs) tag)
      (.array (Marshal.entryText k w) items) := by
  have hdiffer : KeysDiffer v items ↔ fs.Pairwise fun f f' => f'.1.same f.1 = false := by
    rw [KeysDiffer, hkeys, List.pairwise_map]
  refine ⟨fun hall => ?_, fun item' hitem' heq => ?_⟩
  · obtain ⟨hkeys, hitems⟩ := everywhere_survives_array.mp hall
    have hpairs := Entries.ofPairs_eq_self (hdiffer.mp hkeys)
    exact .dict (congrArg some hpairs) (h.encodes hitems)
  · cases hitem' with
    | dict hx hitems =>
        obtain rfl : Entries.ofPairs fs = _ := Option.some.inj hx
        have hcanonical := (Item.array.inj heq).2
        have hsame : (Entries.ofPairs fs).length = fs.length := by
          rw [← hitems.length_eq, length_eq_of_listCanonical hcanonical, hlength]
        have hpairs := Entries.pairwise_of_length_ofPairs hsame
        rw [Entries.ofPairs_eq_self hpairs] at hitems
        exact everywhere_survives_array.mpr ⟨hdiffer.mpr hpairs, h.survives _ hitems hcanonical⟩

theorem readTypes?_text (t : SigType) (ht : Valid [t]) : readTypes? t.text = some [t] := by
  rw [← listText_singleton]
  exact readTypes?_eq_some_iff.mpr ⟨rfl, ht.nonempty⟩

/-- A basic value returns in one variant, if its type is guessed for it. -/
theorem returns_wrapped_basic (hv : v.Exact) {b : BasicType} {c : Scalar} {y : Value}
    (ht : Valid [.basic b.guessed]) (hlevel : y.level = 0)
    (hguess : y.guessPlain v = .ok (SigType.basic b.guessed).text) (hcell : b.cell v y = .ok c)
    (n : Nat) : Returns v .variant y ((Item.basic b.char c).wrapped (n + 1)) := by
  have hplain : ∀ items, Item.basic b.char c ≠ .variant items := by simp
  have hmade := Signature.ofText_listText hv ht
  rw [listText_singleton] at hmade
  have hread := readTypes?_text _ ht
  have hcount : y.level - 1 + 1 = 1 := by omega
  refine ⟨fun hall => ?_, fun item' hitem' heq => ?_⟩
  · obtain ⟨hbasic, -⟩ := (everywhere_survives_wrapped hplain n).mp hall
    obtain ⟨rfl, hchar⟩ := hbasic b.char c rfl
    have hself := BasicType.guessed_eq_self_iff.mpr hchar
    rw [hself] at hguess hmade hread
    rw [Nat.zero_add, ← hcount]
    exact .variant hguess hmade hread (.basic hcell)
  · cases hitem' with
    | variant hguess' hs hread' hcontents =>
        obtain rfl := Except.ok.inj (hguess.symm.trans hguess')
        obtain ⟨rfl, -⟩ := List.cons.inj (Option.some.inj (hread.symm.trans hread'))
        cases hcontents with
        | basic hcell' =>
            rw [hcount, canonical_wrapped, canonical_wrapped] at heq
            obtain ⟨hn, hbasic⟩ := wrapped_inj (by simp [canonical]) (by simp [canonical]) heq
            have hchar : b.guessed.char = b.char := (Item.basic.inj hbasic).1
            have hself : b.guessed = b := by
              have hfound := BasicType.ofChar?_char b.guessed
              rw [hchar, BasicType.ofChar?_char] at hfound
              exact (Option.some.inj hfound).symm
            refine (everywhere_survives_wrapped hplain n).mpr ⟨?_, everywhere_survives_basic _ _⟩
            intro type content hc
            obtain ⟨rfl, -⟩ := Item.basic.inj hc
            exact ⟨by omega, BasicType.guessed_eq_self_iff.mp hself⟩

/-- A container returns in as many variants as it was in. -/
theorem Returns.wrapped (hv : v.Exact) {t : SigType} {y : Value} {item : Item} {n : Nat}
    (ht : Valid [t]) (hlevel : y.level = n + 1) (hguess : y.guessPlain v = .ok t.text)
    (hitem : ∀ items, item ≠ .variant items)
    (hbasic : ∀ type content, item ≠ .basic type content) (h : Returns v t y item) :
    Returns v .variant y (item.wrapped (n + 1)) := by
  have hmade := Signature.ofText_listText hv ht
  rw [listText_singleton] at hmade
  have hread := readTypes?_text t ht
  have hcount : y.level - 1 + 1 = n + 1 := by omega
  refine ⟨fun hall => ?_, fun item' hitem' heq => ?_⟩
  · obtain ⟨-, hall⟩ := (everywhere_survives_wrapped hitem n).mp hall
    rw [← hcount]
    exact .variant hguess hmade hread (h.encodes hall)
  · refine (everywhere_survives_wrapped hitem n).mpr
      ⟨fun type content hc => absurd hc (hbasic type content), ?_⟩
    cases hitem' with
    | variant hguess' hs hread' hcontents =>
        obtain rfl := Except.ok.inj (hguess.symm.trans hguess')
        obtain ⟨rfl, -⟩ := List.cons.inj (Option.some.inj (hread.symm.trans hread'))
        rw [hcount, canonical_wrapped, canonical_wrapped] at heq
        exact h.survives _ hcontents (wrapped_left_inj heq)

theorem valid_basic (b : BasicType) : Valid [.basic b] := by
  constructor <;> cases b <;> decide

/-- The text of a container is made of that of its contents, as it is guessed for values that
know their contents. -/
theorem text_eq_of_append {t : SigType} {us : List SigType} {front back : List Char}
    (h : t.chars = front ++ listChars us ++ back) :
    t.text = String.ofList front ++ listText us ++ String.ofList back := by
  rw [← listText_singleton]
  exact listText_eq_of_append (by simp [SigType.listChars, h])

theorem guessed_array {e : SigType} {ys : List Value} {n : Nat} :
    Guessed v n (.array ys ⟨some ⟨e.text⟩, .count n⟩) (.array e) := by
  have htext : (SigType.array e).text = String.ofList ['a'] ++ listText [e] ++ String.ofList [] :=
    text_eq_of_append (by simp [SigType.listChars, SigType.chars])
  rw [listText_singleton] at htext
  refine ⟨rfl, ?_⟩
  rw [htext]
  simp [Value.guessPlain]

theorem guessed_dict {k : BasicType} {w : SigType} {es : List (Value × Value)} {n : Nat} :
    Guessed v n (.dictionary es ⟨some ⟨listText [.basic k, w]⟩, .count n⟩) (.dict k w) := by
  refine ⟨rfl, congrArg Except.ok (text_eq_of_append ?_).symm⟩
  simp [SigType.listChars, SigType.chars]

theorem guessed_struct {fs : List SigType} {ys : List Value} {n : Nat} :
    Guessed v n (.struct ys ⟨some ⟨listText fs⟩, .count n⟩) (.struct fs) := by
  refine ⟨rfl, congrArg Except.ok (text_eq_of_append ?_).symm⟩
  simp [SigType.chars]

/-- A value that is read from an item in variants returns in them. -/
theorem Item.HasType.returns_wrapped (hv : v.Exact) {t : SigType} {item : Item} {y : Value}
    {n : Nat} (h : HasType t item) (hplain : t ≠ .variant) (ht : Valid [t])
    (hread : Gives (Unmarshal.read v (.int (n + 1 : Nat)) item) y)
    (hguess : Guessed v (n + 1) y t) (hreturns : Returns v t y item) :
    Returns v .variant y (item.wrapped (n + 1)) := by
  cases h with
  | basic _ =>
      cases hreturns.encodes (everywhere_survives_basic _ _) with
      | basic hcell =>
          exact returns_wrapped_basic hv (valid_basic _) hguess.1 hguess.2 hcell n
  | variant => exact absurd rfl hplain
  | array _ | dict _ | struct _ =>
      exact hreturns.wrapped hv ht hguess.1 hguess.2 (by simp) (by simp)

mutual

/-- An item that has a valid type is read as a value that returns. -/
theorem Item.HasType.returns (hv : v.Exact) : {t : SigType} → {item : Item} →
    HasType t item → Valid [t] → ∀ n : Nat, (t = .variant → n = 0) →
    ∃ y, Gives (Unmarshal.read v (.int n) item) y ∧ Guessed v n y t ∧ Returns v t y item
  | _, _, .basic h, _, n, _ => by
      obtain ⟨y, hread, hcell, hlevel, hguess, -⟩ := h.read hv
      exact ⟨y, Unmarshal.gives_read_basic n hread, ⟨hlevel, hguess⟩, returns_basic hcell⟩
  | _, _, .array h, ht, n, _ => by
      obtain ⟨ys, hread, hlength, hreturns⟩ := h.returnsAll hv fun t ht' =>
        List.eq_of_mem_replicate ht' ▸ ht.element
      have hs := Signature.ofText_listText hv ht.element
      rw [listText_singleton] at hs
      rw [← hlength] at hreturns
      exact ⟨_, Unmarshal.gives_read_array n hs hread, guessed_array,
        hreturns.array h.keysDiffer⟩
  | _, _, .dict h, ht, n, _ => by
      obtain ⟨fs, hread, hkeyable, hkeys, hlength, hreturns⟩ := h.returnsEntries hv ht.entry
      have hs := Signature.ofText_listText hv ht.entry
      exact ⟨_, Unmarshal.gives_read_dict n hs hkeyable hread, guessed_dict,
        hreturns.dict hkeys hlength⟩
  | _, _, .struct h, ht, n, _ => by
      obtain ⟨ys, hread, -, hreturns⟩ := h.returnsAll hv ht.fields.of_mem
      have hs := Signature.ofText_listText hv ht.fields
      exact ⟨_, Unmarshal.gives_read_struct n h.listChars hs hread, guessed_struct,
        hreturns.struct⟩
  | _, _, .variant (n := m) hplain ht h, _, n, hn => by
      obtain ⟨y, hread, hguess, hreturns⟩ :=
        h.returns hv ht (m + 1) fun hvariant => absurd hvariant hplain
      obtain rfl := hn rfl
      have hwrapped := Unmarshal.gives_read_wrapped (m + 1) 0 (by rwa [Nat.zero_add])
      exact ⟨y, hwrapped, trivial, h.returns_wrapped hv hplain ht hread hguess hreturns⟩

theorem Item.HaveTypes.returnsAll (hv : v.Exact) : {ts : List SigType} → {items : List Item} →
    HaveTypes ts items → (∀ t ∈ ts, Valid [t]) →
    ∃ ys, Gives (Unmarshal.readEach v items) ys ∧ ys.length = items.length ∧
      ReturnsAll v ts ys items
  | _, _, .nil, _ => by
      exact ⟨[], gives_pure [], rfl, returnsAll_nil⟩
  | _, _, .cons h hs, hts => by
      obtain ⟨y, hread, -, hreturn⟩ := h.returns hv (hts _ (by simp)) 0 fun _ => rfl
      obtain ⟨ys, hreads, hlength, hreturns⟩ :=
        hs.returnsAll hv fun t ht => hts t (by simp [ht])
      refine ⟨y :: ys, ?_, by simp [hlength], hreturn.cons hreturns⟩
      rw [Unmarshal.readEach]
      exact hread.insideIteration.bind (hreads.bind (gives_pure _))

theorem Item.HaveEntries.returnsEntries (hv : v.Exact) : {k : BasicType} → {w : SigType} →
    {items : List Item} → HaveEntries k w items → Valid [.basic k, w] →
    ∃ fs, Gives (Unmarshal.readEntries v items) (fs.map fun f => .tuple [f.1, f.2]) ∧
      (∀ f ∈ fs, f.1.isKeyable = true) ∧ items.filterMap (key? v) = fs.map Prod.fst ∧
      items.length = fs.length ∧ ReturnsEntries v k w fs items
  | _, _, _, .nil, _ => by
      exact ⟨[], gives_pure [], by simp, rfl, rfl, fun _ => .nil, fun _ _ _ => everywhere_nil⟩
  | _, _, _, .cons hkey h hs, hkw => by
      obtain ⟨y, hkeyRead, hcell, -, -, hkeyable⟩ := hkey.read hv
      obtain ⟨y', hread, -, hreturn⟩ := h.returns hv hkw.tail 0 fun _ => rfl
      obtain ⟨fs, hreads, hkeyables, hkeys, hlength, hreturns⟩ := hs.returnsEntries hv hkw
      have hpairs := Unmarshal.gives_readEntries_cons (Unmarshal.gives_read_basic 0 hkeyRead)
        hread hreads
      refine ⟨(y, y') :: fs, hpairs, by simpa [hkeyable] using fun a b => hkeyables (a, b), ?_,
        by simp [hlength], Returns.entry hcell hreturn hreturns⟩
      rw [List.filterMap_cons_some (key?_dictEntry hkeyRead), hkeys, List.map_cons]

end

end DBusHost
