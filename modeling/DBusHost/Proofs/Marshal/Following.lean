import DBusHost.Proofs.Marshal.Guided
import DBusHost.Proofs.Signature.Accepting
import DBusHost.Proofs.Signature.Stepping
import Mathlib.Data.Set.Finite.Basic
import Mathlib.Order.Filter.AtTopBot.Basic
import Mathlib.Order.Filter.Finite

/-!
# Marshalling along a cursor ends

A cursor over an accepted signature comes to the complete types of the signature, and inside a type
to its parts.  So the type code that marshalling along a cursor finds is that of the type that
`Marshal.append` writes the same value as, and every iterator that it opens writes and was opened in
another one.  There is a depth, for every signature and value, from which on the result is that of
`Marshal.append`, which has none of the branches that ought to be dead.  An induction over types and
values shows this; it bounds the depth by that of the parts and their number.
-/

namespace DBusHost

open SigType

namespace Guided

/-! ## Cursors and types -/

/-- The cursor is new, is before these types, and comes to no others. -/
structure Covers (c : Cursor) (ts : List SigType) : Prop where
  spans : c.Spans (ts.map visit)
  at_stop : ∀ (k : Nat) (t : SigType), ts[k]? = some t → At t (c.stop k)

section

variable {c : Cursor} {t e w : SigType} {k : BasicType} {ts : List SigType}

theorem covers_of_before (h : Before ts c) (hts : listHasFields ts = true)
    (hempty : ts = [] → c.rest = []) : Covers c ts where
  spans := listVisit_eq_map ts ▸ Cursor.spans_of_before h hts hempty
  at_stop k t ht := by
    obtain ⟨rest, hrest, -⟩ := h.rest
    obtain ⟨hk, rfl⟩ := List.getElem?_eq_some_iff.mp ht
    refine ⟨listChars (ts.drop (k + 1)) ++ rest, ?_⟩
    rw [Cursor.rest_stop_listChars (Nat.le_of_lt hk) hrest, List.drop_eq_getElem_cons hk,
      listChars, List.append_assoc]

theorem covers_start (hts : listHasFields ts = true) :
    Covers (Cursor.start ⟨listText ts⟩) ts := by
  have hbefore : Before ts (Cursor.start ⟨listText ts⟩) :=
    ⟨⟨[], by simp [Cursor.start, listText], rfl⟩, rfl, rfl⟩
  refine covers_of_before hbefore hts fun h => ?_
  simp [h, Cursor.start, listText, listChars]

theorem code_of_at (h : At t c) : c.code = t.code := by
  obtain ⟨rest, hrest⟩ := h
  rw [Cursor.code, hrest, codeOf_chars]

theorem isContainer_of_at_array (h : At (.array e) c) : c.isContainer = true := by
  simp [Cursor.isContainer, code_of_at h, SigType.code]

theorem isContainer_of_at_dict (h : At (.dict k w) c) : c.isContainer = true := by
  simp [Cursor.isContainer, code_of_at h, SigType.code]

theorem isContainer_of_at_struct (h : At (.struct ts) c) : c.isContainer = true := by
  simp [Cursor.isContainer, code_of_at h, SigType.code]

/-- No complete type is a dict entry. -/
theorem code_ne_dictEntry (t : SigType) : t.code ≠ ContainerKind.dictEntry.code := by
  cases t with
  | basic b => cases b <;> decide
  | variant => exact (by decide : ContainerKind.variant.code ≠ ContainerKind.dictEntry.code)
  | array | dict => exact (by decide : ContainerKind.array.code ≠ ContainerKind.dictEntry.code)
  | struct => exact (by decide : ContainerKind.struct.code ≠ ContainerKind.dictEntry.code)

theorem elementCode_of_at_array (h : At (.array e) c) :
    c.elementCode ≠ ContainerKind.dictEntry.code := by
  obtain ⟨rest, hrest⟩ := h
  have hcode : c.code = ContainerKind.array.code := code_of_at ⟨rest, hrest⟩
  have helement : c.elementCode = e.code := by
    rw [Cursor.elementCode, if_pos hcode, hrest]
    exact codeOf_chars e rest
  rw [helement]
  exact code_ne_dictEntry e

theorem elementCode_of_at_dict (h : At (.dict k w) c) :
    c.elementCode = ContainerKind.dictEntry.code := by
  obtain ⟨rest, hrest⟩ := h
  have hcode : c.code = ContainerKind.array.code := code_of_at ⟨rest, hrest⟩
  rw [Cursor.elementCode, if_pos hcode, hrest]
  rfl

/-- Inside an array there is its element type. -/
theorem covers_element (h : At (.array e) c) (he : e.hasFields = true) : Covers c.inside [e] := by
  obtain ⟨rest, hrest⟩ := h
  refine ⟨Cursor.spans_element hrest (.type he rest), fun k t ht => ?_⟩
  obtain ⟨hk, rfl⟩ := List.getElem?_eq_some_iff.mp ht
  obtain rfl : k = 0 := by simpa using hk
  exact ⟨rest, by simp [Cursor.stop, Cursor.inside, hrest, chars]⟩

theorem covers_fields (h : At (.struct ts) c) (hts : (SigType.struct ts).hasFields = true) :
    Covers c.inside ts := by
  obtain ⟨rest, hrest⟩ := h
  simp only [hasFields, Bool.and_eq_true, Bool.not_eq_true', List.isEmpty_eq_false_iff] at hts
  have hcode : c.code ≠ ContainerKind.array.code := by
    rw [code_of_at ⟨rest, hrest⟩]
    exact (by decide : ContainerKind.struct.code ≠ ContainerKind.array.code)
  exact covers_of_before (Cursor.before_inside hrest hcode rfl) hts.2 fun h => absurd h hts.1

/-- Inside an array of dict entries a cursor is at a dict entry. -/
theorem rest_inside_dict (h : At (.dict k w) c) :
    ∃ rest, c.inside.rest = entryChars k w ++ rest := by
  obtain ⟨rest, hrest⟩ := h
  exact ⟨rest, by simp [Cursor.inside, hrest, chars, entryChars]⟩

theorem code_inside_dict (h : At (.dict k w) c) :
    c.inside.code = ContainerKind.dictEntry.code := by
  obtain ⟨rest, hrest⟩ := rest_inside_dict h
  rw [Cursor.code, hrest]
  rfl

/-- Inside a dict entry there are the types of its key and its value. -/
theorem covers_entry (h : At (.dict k w) c) (hw : w.hasFields = true) :
    Covers c.inside.inside [.basic k, w] := by
  obtain ⟨rest, hrest⟩ := rest_inside_dict h
  have hchars : entryChars k w = '{' :: listChars [.basic k, w] ++ ['}'] := by
    simp [entryChars, listChars, chars]
  have hcode : c.inside.code ≠ ContainerKind.array.code := by
    rw [code_inside_dict h]
    decide
  rw [hchars] at hrest
  exact covers_of_before (Cursor.before_inside hrest hcode rfl)
    (by simpa [listHasFields, hasFields] using hw) (by simp)

/-! ## The same writing -/

variable {v : Validator} {x : Value} {xs : List Value} {p : Pen}

theorem openArray_eq {chars rest : List Char} (h : c.isContainer = true)
    (hcode : c.inside.code ≠ noType) (hsplit : splitType c.inside.rest = (chars, rest))
    (p : Pen) : openArray c p = (do
      Writing.call .signatureText
      p.openContainer .array (some (String.ofList chars))) := by
  rw [openArray, native_enter h, pure_bind, native_text hcode hsplit, bind_assoc]
  rfl

theorem openArray_array (h : At (.array e) c) (p : Pen) : openArray c p = (do
    Writing.call .signatureText
    p.openContainer .array (some e.text)) := by
  have hcontainer := isContainer_of_at_array h
  obtain ⟨rest, hrest⟩ := h
  have hinside : c.inside.rest = e.chars ++ rest := by simp [Cursor.inside, hrest, chars]
  refine openArray_eq hcontainer ?_ (hinside ▸ splitType_chars e rest) p
  rw [Cursor.code, hinside, codeOf_chars]
  exact e.code_ne_noType

theorem openArray_dict (h : At (.dict k w) c) (p : Pen) : openArray c p = (do
    Writing.call .signatureText
    p.openContainer .array (some (Marshal.entryText k w))) := by
  obtain ⟨rest, hrest⟩ := rest_inside_dict h
  refine openArray_eq (isContainer_of_at_dict h) ?_ (hrest ▸ splitType_entryChars k w rest) p
  rw [code_inside_dict h]
  decide

/-- At a depth, a value is written as the type that the cursor is on. -/
def FollowsAt (v : Validator) (depth : Nat) (t : SigType) (x : Value) : Prop :=
  t.hasFields = true → ∀ c p, At t c → p.writing = true →
    appendOne depth v x c p = ofWriting (Marshal.write v t p.place x)

/-- From some depth on, a value is written as the type that the cursor is on. -/
def Follows (v : Validator) (t : SigType) (x : Value) : Prop :=
  ∀ᶠ depth in Filter.atTop, FollowsAt v depth t x

theorem follows_of_le (n : Nat) (h : ∀ depth, n ≤ depth → FollowsAt v depth t x) :
    Follows v t x :=
  Filter.eventually_atTop.mpr ⟨n, h⟩

/-- One depth does for all the values of a list. -/
theorem exists_followsAt {ι : Type} {l : List ι} {t : ι → SigType} {y : ι → Value}
    (h : ∀ i ∈ l, Follows v (t i) (y i)) :
    ∃ n, ∀ depth, n ≤ depth → ∀ i ∈ l, FollowsAt v depth (t i) (y i) :=
  Filter.eventually_atTop.mp
    ((Filter.eventually_all_finite (List.finite_toSet l)).mpr h)

section

variable {n depth : Nat}

/-- The loop writes the values from the index on as the types that are left. -/
theorem appendSub_placed (hc : Covers c ts) (hts : listHasFields ts = true)
    (hp : p.writing = true)
    (h : ∀ m, n ≤ m → ∀ (j : Nat) (t : SigType) (y : Value), ts[j]? = some t → xs[j]? = some y →
      FollowsAt v m t y)
    {d : Cursor} {i : Nat} (hd : c.Placed ts.length i d) (hi : i ≤ xs.length)
    (hdepth : n + (xs.length - i) < depth) :
    appendSub depth v xs i d p =
      ofWriting (Marshal.writeFields v (ts.drop i) p.place (xs.drop i)) := by
  have hlength : (ts.map visit).length = ts.length := List.length_map ..
  induction hk : xs.length - i generalizing i d depth with
  | zero =>
      obtain ⟨depth, rfl⟩ := Nat.exists_eq_succ_of_ne_zero (Nat.ne_zero_of_lt hdepth)
      have hxs : xs.drop i = [] := List.drop_of_length_le (by omega)
      rcases hc.spans.advance_placed (hlength ▸ hd) with ⟨hlt, hadvance⟩ | ⟨heq, _, _, hadvance, -⟩
      · have hit : i < ts.length := hlength ▸ hlt
        simp only [appendSub, hadvance, if_pos (by omega : xs.length ≤ i)]
        rw [hxs, List.drop_eq_getElem_cons hit]
        rfl
      · have hts' : ts.drop i = [] := List.drop_of_length_le (by omega)
        simp only [appendSub, hadvance, if_pos (by omega : i = xs.length)]
        rw [hxs, hts']
        rfl
  | succ k ih =>
      obtain ⟨depth, rfl⟩ := Nat.exists_eq_succ_of_ne_zero (Nat.ne_zero_of_lt hdepth)
      have hix : i < xs.length := by omega
      rcases hc.spans.advance_placed (hlength ▸ hd) with ⟨hlt, hadvance⟩ | ⟨heq, _, _, hadvance, -⟩
      · have hit : i < ts.length := hlength ▸ hlt
        have hfields := listHasFields_iff.mp hts _ (List.getElem_mem hit)
        have hone := h depth (by omega) i _ _ (List.getElem?_eq_getElem hit)
          (List.getElem?_eq_getElem hix) hfields (c.stop i) p
          (hc.at_stop i _ (List.getElem?_eq_getElem hit)) hp
        have hlater : n + (xs.length - (i + 1)) < depth := by omega
        have hrest := ih (.moved hit) (by omega : i + 1 ≤ xs.length) hlater (by omega)
        simp only [appendSub, hadvance, if_neg (by omega : ¬ xs.length ≤ i),
          List.getElem?_eq_getElem hix]
        rw [List.drop_eq_getElem_cons hit, List.drop_eq_getElem_cons hix, Marshal.writeFields,
          ofWriting_bind, hone, hrest]
      · have hts' : ts.drop i = [] := List.drop_of_length_le (by omega)
        simp only [appendSub, hadvance, if_neg (by omega : ¬ i = xs.length)]
        rw [hts', List.drop_eq_getElem_cons hix]
        rfl

theorem appendSub_eq (hc : Covers c ts) (hts : listHasFields ts = true) (hp : p.writing = true)
    (h : ∀ m, n ≤ m → ∀ (j : Nat) (t : SigType) (y : Value), ts[j]? = some t → xs[j]? = some y →
      FollowsAt v m t y) (hdepth : n + xs.length < depth) :
    appendSub depth v xs 0 c p = ofWriting (Marshal.writeFields v ts p.place xs) :=
  appendSub_placed hc hts hp h .fresh (Nat.zero_le _) hdepth

/-- One value as one type. -/
theorem appendSub_one (hc : Covers c [t]) (ht : t.hasFields = true) (hp : p.writing = true)
    (h : ∀ m, n ≤ m → FollowsAt v m t x) (hdepth : n + 1 < depth) :
    appendSub depth v [x] 0 c p = ofWriting (Marshal.write v t p.place x) := by
  have hfields : Marshal.writeFields v [t] p.place [x] = Marshal.write v t p.place x := by
    simp [Marshal.writeFields]
  rw [appendSub_eq hc (by simpa [listHasFields] using ht) hp _ hdepth, hfields]
  intro m hm j u y hu hy
  obtain rfl : j = 0 := by simpa using (List.getElem?_eq_some_iff.mp hu).1
  obtain rfl : t = u := by simpa using hu
  obtain rfl : x = y := by simpa using hy
  exact h m hm

theorem appendElements_eq (hat : At (.array e) c) (he : e.hasFields = true)
    (hp : p.writing = true) (h : ∀ m, n ≤ m → ∀ y ∈ xs, FollowsAt v m e y)
    (hdepth : n + 1 + xs.length < depth) :
    appendElements depth v xs c p = ofWriting (Marshal.writeEach v e p.place xs) := by
  induction xs generalizing depth with
  | nil =>
      obtain ⟨depth, rfl⟩ := Nat.exists_eq_succ_of_ne_zero (Nat.ne_zero_of_lt hdepth)
      rfl
  | cons y ys ih =>
      obtain ⟨depth, rfl⟩ := Nat.exists_eq_succ_of_ne_zero (Nat.ne_zero_of_lt hdepth)
      rw [List.length_cons] at hdepth
      have hone := appendSub_one (covers_element hat he) he hp
        (fun m hm => h m hm y List.mem_cons_self) (by omega : n + 1 < depth)
      have hrest := ih (fun m hm z hz => h m hm z (List.mem_cons_of_mem _ hz))
        (by omega : n + 1 + ys.length < depth)
      rw [appendElements, native_enter (isContainer_of_at_array hat), ofWriting_pure, pure_bind,
        hone, hrest, Marshal.writeEach, ofWriting_bind]

/-- A key and a value as the types of a dict entry. -/
theorem appendSub_entry {y : Value} (hat : At (.dict k w) c) (hw : w.hasFields = true)
    (hp : p.writing = true) (hx : ∀ m, n ≤ m → FollowsAt v m (.basic k) x)
    (hy : ∀ m, n ≤ m → FollowsAt v m w y) (hdepth : n + 2 < depth) :
    appendSub depth v [x, y] 0 c.inside.inside p = ofWriting (do
      Marshal.write v (.basic k) p.place x
      Marshal.write v w p.place y) := by
  have hfields : Marshal.writeFields v [.basic k, w] p.place [x, y] = (do
      Marshal.write v (.basic k) p.place x
      Marshal.write v w p.place y) := by
    simp [Marshal.writeFields]
  have hts : listHasFields [.basic k, w] = true := by simpa [listHasFields, hasFields] using hw
  rw [appendSub_eq (covers_entry hat hw) hts hp _ hdepth, hfields]
  intro m hm j t z ht hz
  obtain rfl | rfl : j = 0 ∨ j = 1 := by
    have hj : j < 2 := (List.getElem?_eq_some_iff.mp ht).1
    omega
  · obtain rfl : .basic k = t := by simpa using ht
    obtain rfl : x = z := by simpa using hz
    exact hx m hm
  · obtain rfl : w = t := by simpa using ht
    obtain rfl : y = z := by simpa using hz
    exact hy m hm

theorem appendEntries_eq {es : List (Value × Value)} (hat : At (.dict k w) c)
    (hw : w.hasFields = true) (hp : p.writing = true)
    (h : ∀ m, n ≤ m → ∀ e ∈ es, FollowsAt v m (.basic k) e.1 ∧ FollowsAt v m w e.2)
    (hdepth : n + 2 + es.length < depth) :
    appendEntries depth v es c p = ofWriting (Marshal.writeEntries v k w p.place es) := by
  induction es generalizing depth with
  | nil =>
      obtain ⟨depth, rfl⟩ := Nat.exists_eq_succ_of_ne_zero (Nat.ne_zero_of_lt hdepth)
      rfl
  | cons entry es ih =>
      obtain ⟨depth, rfl⟩ := Nat.exists_eq_succ_of_ne_zero (Nat.ne_zero_of_lt hdepth)
      obtain ⟨x, y⟩ := entry
      rw [List.length_cons] at hdepth
      have hcontainer : c.inside.isContainer = true := by
        simp [Cursor.isContainer, code_inside_dict hat]
      have hfilled := ofWriting_inContainer hp .dictEntry none
        (fun q => do
          let inner ← ofWriting (native c.enter)
          let inner ← ofWriting (native inner.enter)
          appendSub depth v [x, y] 0 inner q)
        (fun q => do
          Marshal.write v (.basic k) q x
          Marshal.write v w q y) fun i => by
        rw [native_enter (isContainer_of_at_dict hat), ofWriting_pure, pure_bind,
          native_enter hcontainer, ofWriting_pure, pure_bind,
          appendSub_entry hat hw (p := .into i) rfl
            (fun m hm => (h m hm _ List.mem_cons_self).1)
            (fun m hm => (h m hm _ List.mem_cons_self).2) (by omega : n + 2 < depth)]
        rfl
      have hrest := ih (fun m hm e he => h m hm e (List.mem_cons_of_mem _ he))
        (by omega : n + 2 + es.length < depth)
      rw [appendEntries, Marshal.writeEntries, ofWriting_bind, ← hfilled, bind_assoc, hrest]

/-! ## Variants -/

/-- A variant is filled with one value as the types that are guessed for it. -/
theorem appendSub_guessed (hv : v.Exact) (hp : p.writing = true) {s : String}
    (hs : x.guessPlain v = .ok s)
    (h : ∀ m, n ≤ m → ∀ t ts, readTypes? s = some (t :: ts) → FollowsAt v m t x)
    (hdepth : n + 1 < depth) :
    (do
      let g ← ofWriting (Marshal.lift (Signature.ofText v s))
      appendSub depth v [x] 0 (Cursor.start g) p) =
      ofWriting (do
        let g ← Marshal.lift (Signature.ofText v s)
        let ts ← Marshal.lift g.types
        Marshal.writeGuessed v ts x (Parts.ofValue v x) p.place) := by
  cases hg : Signature.ofText v s with
  | error f => rfl
  | ok g =>
      obtain ⟨haccepted, htext⟩ := Signature.accepted_of_check hg
      obtain ⟨ts, rfl, hvalid, htypes⟩ := haccepted.exists_types hv
      obtain rfl : listText ts = s := htext
      have hread := readTypes?_eq_some_iff.mpr ⟨rfl, hvalid.nonempty⟩
      have hfields : appendSub depth v [x] 0 (Cursor.start ⟨listText ts⟩) p =
          ofWriting (Marshal.writeFields v ts p.place [x]) := by
        refine appendSub_eq (covers_start hvalid.nonempty) hvalid.nonempty hp ?_ hdepth
        intro m hm j t y ht hy
        obtain rfl : j = 0 := by simpa using (List.getElem?_eq_some_iff.mp hy).1
        obtain rfl : x = y := by simpa using hy
        obtain ⟨us, rfl⟩ : ∃ us, ts = t :: us := by
          cases ts with
          | nil => simp at ht
          | cons u us => exact ⟨us, by simpa using ht⟩
        exact h m hm t us hread
      change appendSub depth v [x] 0 (Cursor.start ⟨listText ts⟩) p =
        ofWriting (Marshal.lift (Signature.types ⟨listText ts⟩) >>= fun ts =>
          Marshal.writeGuessed v ts x (Parts.ofValue v x) p.place)
      rw [hfields, htypes, ← Marshal.writeGuessed_eq hs hread]
      rfl

theorem appendVariant_eq (hv : v.Exact)
    (h : ∀ m, n ≤ m → ∀ s t ts, x.guessPlain v = .ok s → readTypes? s = some (t :: ts) →
      FollowsAt v m t x)
    (outer : Nat) (hp : p.writing = true) (hdepth : n + 2 + outer < depth) :
    appendVariant depth v x (outer + 1) p =
      ofWriting (Marshal.writeVariant v x (Parts.ofValue v x) outer p.place) := by
  induction outer generalizing p depth with
  | zero =>
      obtain ⟨depth, rfl⟩ := Nat.exists_eq_succ_of_ne_zero (Nat.ne_zero_of_lt hdepth)
      rw [appendVariant, if_neg (by omega), Marshal.writeVariant]
      cases hs : x.guessPlain v with
      | error f => rfl
      | ok s =>
          refine ofWriting_inContainer hp .variant (some s)
            (fun q => do
              let g ← ofWriting (Marshal.lift (Signature.ofText v s))
              appendSub depth v [x] 0 (Cursor.start g) q)
            (fun q => do
              let g ← Marshal.lift (Signature.ofText v s)
              let ts ← Marshal.lift g.types
              Marshal.writeGuessed v ts x (Parts.ofValue v x) q) fun i => ?_
          exact appendSub_guessed hv (p := .into i) rfl hs
            (fun m hm t ts => h m hm s t ts hs) (by omega)
  | succ outer ih =>
      obtain ⟨depth, rfl⟩ := Nat.exists_eq_succ_of_ne_zero (Nat.ne_zero_of_lt hdepth)
      rw [appendVariant, if_pos (by omega), Marshal.writeVariant]
      exact ofWriting_inContainer hp .variant (some "v") _ _ fun i =>
        ih (p := .into i) rfl (by omega)

end

/-! ## Every value and type -/

theorem follows_basic (b : BasicType) (x : Value) : Follows v (.basic b) x := by
  refine follows_of_le 1 fun depth hdepth _ c p hat hp => ?_
  obtain ⟨depth, rfl⟩ := Nat.exists_eq_succ_of_ne_zero (Nat.ne_zero_of_lt hdepth)
  have hcode : c.code = typeCode b.char := code_of_at hat
  have hknown : (BasicType.ofCode? (typeCode b.char)).isSome = true := by cases b <;> rfl
  have hchar : Char.ofNat (typeCode b.char) = b.char := by cases b <;> rfl
  rw [appendOne, hcode, if_pos hknown, Pen.appendBasic, hp, hchar, Marshal.write_basic]
  rfl

theorem appendOne_array {c : Cursor} (hcode : c.code = ContainerKind.array.code) (depth : Nat) :
    appendOne (depth + 1) v x c p = appendArray depth v x c p := by
  rw [appendOne, hcode, if_neg (by decide), if_pos rfl]

theorem follows_array (h : ∀ xs, x.sequence? = some xs → ∀ y ∈ xs, Follows v e y) :
    Follows v (.array e) x := by
  cases hx : x.sequence? with
  | none =>
      refine follows_of_le 2 fun depth hdepth ht c p hat hp => ?_
      obtain ⟨depth, rfl⟩ := Nat.exists_eq_add_of_le' hdepth
      rw [appendOne_array (code_of_at hat), appendArray, if_neg (elementCode_of_at_array hat), hx,
        Marshal.write_array_of_none hx]
      rfl
  | some xs =>
      obtain ⟨n, hn⟩ := exists_followsAt (h xs hx)
      refine follows_of_le (n + xs.length + 4) fun depth hdepth ht c p hat hp => ?_
      obtain ⟨depth, rfl⟩ := Nat.exists_eq_add_of_le' (by omega : 2 ≤ depth)
      have he : e.hasFields = true := ht
      have hfilled := ofWriting_inContainer hp .array (some e.text)
        (fun q => appendElements depth v xs c q) (fun q => Marshal.writeEach v e q xs)
        fun i => appendElements_eq hat he (p := .into i) rfl hn (by omega)
      rw [appendOne_array (code_of_at hat), appendArray, if_neg (elementCode_of_at_array hat), hx,
        Marshal.write_array hx, ofWriting_bind, ← hfilled]
      simp only [openArray_array hat, ofWriting_bind, bind_assoc]

theorem follows_dict
    (h : ∀ es, x.entries? = some es → ∀ e ∈ es, Follows v (.basic k) e.1 ∧ Follows v w e.2) :
    Follows v (.dict k w) x := by
  cases hx : x.entries? with
  | none =>
      refine follows_of_le 2 fun depth hdepth ht c p hat hp => ?_
      obtain ⟨depth, rfl⟩ := Nat.exists_eq_add_of_le' hdepth
      rw [appendOne_array (code_of_at hat), appendArray, if_pos (elementCode_of_at_dict hat), hx,
        Marshal.write_dict_of_none hx]
      rfl
  | some es =>
      obtain ⟨n, hn⟩ := exists_followsAt fun e he => (h es hx e he).1
      obtain ⟨m, hm⟩ := exists_followsAt fun e he => (h es hx e he).2
      refine follows_of_le (n + m + es.length + 5) fun depth hdepth ht c p hat hp => ?_
      obtain ⟨depth, rfl⟩ := Nat.exists_eq_add_of_le' (by omega : 2 ≤ depth)
      have hw : w.hasFields = true := ht
      have hfilled := ofWriting_inContainer hp .array (some (Marshal.entryText k w))
        (fun q => appendEntries depth v es c q) (fun q => Marshal.writeEntries v k w q es)
        fun i => appendEntries_eq (n := n + m) hat hw (p := .into i) rfl
          (fun l hl e he => ⟨hn l (by omega) e he, hm l (by omega) e he⟩) (by omega)
      rw [appendOne_array (code_of_at hat), appendArray, if_pos (elementCode_of_at_dict hat), hx,
        Marshal.write_dict hx, ofWriting_bind, ← hfilled]
      simp only [openArray_dict hat, ofWriting_bind, bind_assoc]

theorem follows_struct (h : ∀ xs, x.items? = some xs → ∀ t ∈ ts, ∀ y ∈ xs, Follows v t y) :
    Follows v (.struct ts) x := by
  cases hx : x.items? with
  | none =>
      refine follows_of_le 1 fun depth hdepth ht c p hat hp => ?_
      obtain ⟨depth, rfl⟩ := Nat.exists_eq_succ_of_ne_zero (Nat.ne_zero_of_lt hdepth)
      have hcode : c.code = ContainerKind.struct.code := code_of_at hat
      rw [appendOne, hcode, if_neg (by decide), if_neg (by decide), if_pos rfl, hx,
        Marshal.write_struct_of_none hx]
      rfl
  | some xs =>
      have hpairs : ∀ i ∈ ts ×ˢ xs, Follows v i.1 i.2 := fun i hi =>
        have hmem := List.mem_product.mp hi
        h xs hx i.1 hmem.1 i.2 hmem.2
      obtain ⟨n, hn⟩ := exists_followsAt hpairs
      refine follows_of_le (n + xs.length + 2) fun depth hdepth ht c p hat hp => ?_
      obtain ⟨depth, rfl⟩ := Nat.exists_eq_succ_of_ne_zero (by omega : depth ≠ 0)
      have hcode : c.code = ContainerKind.struct.code := code_of_at hat
      have hts : listHasFields ts = true := by
        simp only [hasFields, Bool.and_eq_true] at ht
        exact ht.2
      rw [appendOne, hcode, if_neg (by decide), if_neg (by decide), if_pos rfl, hx,
        Marshal.write_struct hx]
      refine ofWriting_inContainer hp .struct none _ _ fun i => ?_
      rw [native_enter (isContainer_of_at_struct hat), ofWriting_pure, pure_bind]
      refine appendSub_eq (p := .into i) (covers_fields hat ht) hts rfl ?_
        (by omega : n + xs.length < depth)
      intro m hm j t y ht hy
      exact hn m hm (t, y)
        (List.mem_product.mpr ⟨List.mem_of_getElem? ht, List.mem_of_getElem? hy⟩)

theorem follows_variant (hv : v.Exact)
    (h : ∀ s t ts, x.guessPlain v = .ok s → readTypes? s = some (t :: ts) → Follows v t x) :
    Follows v .variant x := by
  obtain ⟨n, hn⟩ : ∃ n, ∀ m, n ≤ m → ∀ s t ts, x.guessPlain v = .ok s →
      readTypes? s = some (t :: ts) → FollowsAt v m t x := by
    by_cases hguess : ∃ s t ts, x.guessPlain v = .ok s ∧ readTypes? s = some (t :: ts)
    · obtain ⟨s, t, ts, hs, hread⟩ := hguess
      obtain ⟨n, hn⟩ := Filter.eventually_atTop.mp (h s t ts hs hread)
      refine ⟨n, fun m hm s' t' ts' hs' hread' => ?_⟩
      obtain rfl := Except.ok.inj (hs.symm.trans hs')
      obtain ⟨rfl, -⟩ := List.cons.inj (Option.some.inj (hread.symm.trans hread'))
      exact hn m hm
    · exact ⟨0, fun _ _ s t ts hs hread => absurd ⟨s, t, ts, hs, hread⟩ hguess⟩
  refine follows_of_le (n + x.level + 4) fun depth hdepth _ c p hat hp => ?_
  obtain ⟨depth, rfl⟩ := Nat.exists_eq_succ_of_ne_zero (by omega : depth ≠ 0)
  have hcode : c.code = ContainerKind.variant.code := code_of_at hat
  have hlevels : max x.level 1 = x.level - 1 + 1 := by omega
  rw [appendOne, hcode, if_neg (by decide), if_neg (by decide), if_neg (by decide), if_pos rfl,
    hlevels, appendVariant_eq hv hn _ hp (by omega), Marshal.write_variant]

/-- Along a cursor every value is written as the type that the cursor is on.  A variant leads to
the same value again, but as another type than a variant. -/
theorem follows (hv : v.Exact) (t : SigType) (x : Value) : Follows v t x := by
  induction t, x using Marshal.typed_induction v with
  | basic b x => exact follows_basic b x
  | array e x ih => exact follows_array ih
  | dict k w x ih => exact follows_dict ih
  | struct fs x ih => exact follows_struct ih
  | variant x ih => exact follows_variant hv ih

/-- Along an accepted signature the values are written as its types. -/
theorem appendSub_start (hv : v.Exact) {g : Signature} (hg : g.Accepted v) (xs : List Value) :
    ∃ n, ∀ depth, n ≤ depth →
      appendSub depth v xs 0 (Cursor.start g) .top = ofWriting (do
        let ts ← Marshal.lift g.types
        Marshal.writeFields v ts .body xs) := by
  obtain ⟨ts, rfl, hvalid, htypes⟩ := hg.exists_types hv
  obtain ⟨n, hn⟩ := exists_followsAt fun i (_ : i ∈ ts ×ˢ xs) => follows hv i.1 i.2
  refine ⟨n + xs.length + 1, fun depth hdepth => ?_⟩
  have hfields := appendSub_eq (covers_start hvalid.nonempty) hvalid.nonempty (p := .top) rfl
    (fun m hm j t y ht hy => hn m hm (t, y)
      (List.mem_product.mpr ⟨List.mem_of_getElem? ht, List.mem_of_getElem? hy⟩))
    (by omega : n + xs.length < depth)
  rw [hfields, htypes]
  rfl

end

/-- While a validator accepts the well-formed signatures and no others, there is a depth for every
signature and value from which on marshalling along a cursor ends, and what it writes and what it
answers is what `Marshal.append` does. -/
theorem append_eq {v : Validator} (hv : v.Exact) {signature : Value} (hs : signature.Accepted v)
    (x : Value) : ∃ n, ∀ depth, n ≤ depth →
      append depth v signature x = ofWriting (Marshal.append v signature x) := by
  have hgiven : ∀ s : Value, s.Accepted v → ∃ n, ∀ depth, n ≤ depth →
      (do
        let g ← ofWriting (Marshal.lift (Signature.ofValue v s))
        appendSub depth v (Marshal.arguments x) 0 (Cursor.start g) .top) =
      ofWriting (do
        let g ← Marshal.lift (Signature.ofValue v s)
        let ts ← Marshal.lift g.types
        Marshal.writeFields v ts .body (Marshal.arguments x)) := by
    intro s hs
    cases hg : Signature.ofValue v s with
    | error f => exact ⟨0, fun _ _ => rfl⟩
    | ok g => exact appendSub_start hv (Signature.accepted_of_ofValue hs hg) _
  cases signature with
  | null =>
      cases hguess : Value.guessAll v (Marshal.arguments x) with
      | error f =>
          refine ⟨0, fun depth _ => ?_⟩
          simp only [append, Marshal.append, hguess]
          rfl
      | ok s =>
          obtain ⟨n, hn⟩ := hgiven (.text s) (Value.accepted_of_signatures_eq_nil rfl)
          refine ⟨n, fun depth hdepth => ?_⟩
          simp only [append, Marshal.append, hguess]
          exact hn depth hdepth
  | _ => exact hgiven _ hs

end Guided

end DBusHost
