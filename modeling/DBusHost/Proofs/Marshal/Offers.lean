import DBusHost.Message.Marshal
import DBusHost.Proofs.Signature.Reading

/-!
# What a value offers to a type

Writing a value looks at the value only through what it offers: the elements it has for
an array, the fields it has for a struct, and the entries it has for a dict.  The
equations of this module say, for each form of type, how a value is written as that type.

A variant writes its value as the type that is guessed for it.  No guessed type is a
variant, so an induction over types and values that goes from a variant to the same value
as another type, and from containers to what they offer, is well-founded.
-/

namespace DBusHost

namespace Value

/-- The values that become the elements of an array: the items of a list or a tuple, or
the numbers of bytes. -/
def sequence? (x : Value) : Option (List Value) :=
  x.items?.or (x.bytes?.map fun bs => bs.map ofByte)

theorem sequence?_eq_some_of_items? {x : Value} {xs : List Value} (h : x.items? = some xs) :
    x.sequence? = some xs := by
  simp [sequence?, h]

/-- What is in a sequence is a part of the value, unless it is the number of a byte. -/
theorem sizeOf_lt_of_mem_sequence? {x y : Value} {xs : List Value}
    (h : x.sequence? = some xs) (hy : y ∈ xs) :
    sizeOf y < sizeOf x ∨ ∃ b, y = ofByte b := by
  cases x with
  | list ys | tuple ys | array ys _ | struct ys _ =>
      obtain rfl : ys = xs := by simpa [sequence?, items?] using h
      have := List.sizeOf_lt_of_mem hy
      left
      simp
      omega
  | bytes bs | buffer bs =>
      right
      obtain rfl : bs.map ofByte = xs := by simpa [sequence?, items?, bytes?] using h
      obtain ⟨b, -, rfl⟩ := List.mem_map.mp hy
      exact ⟨b, rfl⟩
  | _ => simp [sequence?, items?, bytes?] at h

theorem sizeOf_lt_of_mem_entries? {x : Value} {e : Value × Value}
    {es : List (Value × Value)} (h : x.entries? = some es) (he : e ∈ es) :
    sizeOf e.1 < sizeOf x ∧ sizeOf e.2 < sizeOf x := by
  obtain ⟨k, w⟩ := e
  cases x with
  | map fs | dictionary fs _ =>
      obtain rfl : fs = es := by simpa [entries?] using h
      have := List.sizeOf_lt_of_mem he
      simp at this ⊢
      omega
  | _ => simp [entries?] at h

/-! ## Guessed types -/

theorem head?_guessFields {v : Validator} {xs : List Value} {s : String}
    (h : guessFields v xs = .ok s) : s.toList.head? = some '(' := by
  cases xs with
  | nil => simp [guessFields] at h
  | cons x xs =>
      simp only [guessFields, bind, Except.bind] at h
      split at h
      · simp at h
      · split at h
        · simp at h
        · obtain rfl := Except.ok.inj h
          simp

theorem head?_guessElement {v : Validator} {xs : List Value} {s : String}
    (h : guessElement v xs = .ok s) : s.toList.head? = some 'a' := by
  cases xs with
  | nil => simp [guessElement] at h
  | cons x xs =>
      simp only [guessElement, bind, Except.bind] at h
      split at h
      · simp at h
      · obtain rfl := Except.ok.inj h
        simp

theorem head?_guessEntry {v : Validator} {es : List (Value × Value)} {s : String}
    (h : guessEntry v es = .ok s) : s.toList.head? = some 'a' := by
  cases es with
  | nil => simp [guessEntry] at h
  | cons e es =>
      obtain ⟨k, x⟩ := e
      simp only [guessEntry, bind, Except.bind] at h
      split at h
      · simp at h
      · split at h
        · simp at h
        · obtain rfl := Except.ok.inj h
          simp

/-- A text that is guessed for a value has a first character, and no variant is first. -/
theorem head?_guessPlain {v : Validator} {x : Value} {s : String}
    (h : x.guessPlain v = .ok s) : ∃ c, s.toList.head? = some c ∧ c ≠ 'v' := by
  cases x with
  | tuple xs => simp [head?_guessFields h]
  | list xs => simp [head?_guessElement h]
  | map es => simp [head?_guessEntry h]
  | struct xs t =>
      cases hg : t.signature with
      | none =>
          have hfields : guessFields v xs = .ok s := by simpa [guessPlain, hg] using h
          simp [head?_guessFields hfields]
      | some g =>
          obtain rfl : _ = s := by simpa [guessPlain, hg] using h
          simp
  | array xs t =>
      cases hg : t.signature with
      | none =>
          have helement : guessElement v xs = .ok s := by simpa [guessPlain, hg] using h
          simp [head?_guessElement helement]
      | some g =>
          obtain rfl : _ = s := by simpa [guessPlain, hg] using h
          simp
  | dictionary es t =>
      cases hg : t.signature with
      | none =>
          have hentry : guessEntry v es = .ok s := by simpa [guessPlain, hg] using h
          simp [head?_guessEntry hentry]
      | some g =>
          obtain rfl : _ = s := by simpa [guessPlain, hg] using h
          simp
  | null | object _ => simp [guessPlain, guessLeaf] at h
  | _ =>
      obtain rfl : _ = s := by simpa [guessPlain, guessLeaf] using h
      simp

/-- The first type that is guessed for a value is not a variant. -/
theorem guessed_ne_variant {v : Validator} {x : Value} {s : String} {t : SigType}
    {ts : List SigType} (h : x.guessPlain v = .ok s) (hts : readTypes? s = some (t :: ts)) :
    t ≠ .variant := by
  rintro rfl
  obtain ⟨c, hhead, hc⟩ := head?_guessPlain h
  rw [(readTypes?_eq_some_iff.mp hts).1, SigType.listText, String.toList_ofList] at hhead
  exact hc (Option.some.inj hhead).symm

end Value

/-- What a value offers, each with the way to write it. -/
def Parts.ofValue (v : Validator) (x : Value) : Parts where
  elements := x.sequence?.map fun xs e p => Marshal.writeEach v e p xs
  fields := x.items?.map fun xs fs p => Marshal.writeFields v fs p xs
  entries := x.entries?.map fun es k w p => Marshal.writeEntries v k w p es

namespace Marshal

/-! ## Equations of writing -/

theorem writeEach_ofByte (v : Validator) (e : SigType) (p : Place) (bs : List UInt8) :
    writeEach v e p (bs.map Value.ofByte) =
      bs.forM fun b => writeAs v e (Value.ofByte b) .none p := by
  induction bs with
  | nil => rfl
  | cons b bs ih =>
      rw [List.map_cons, writeEach, ih]
      rfl

theorem byteParts_eq (v : Validator) {x : Value} {bs : List UInt8}
    (hitems : x.items? = none) (hbytes : x.bytes? = some bs) (hentries : x.entries? = none) :
    byteParts v bs = Parts.ofValue v x := by
  simp [byteParts, Parts.ofValue, Parts.none, Value.sequence?, hitems, hbytes, hentries,
    writeEach_ofByte]

/-- Writing looks at a value through what it offers. -/
theorem write_eq (v : Validator) (t : SigType) (p : Place) (x : Value) :
    write v t p x = writeAs v t x (Parts.ofValue v x) p := by
  cases x with
  | bytes bs => rw [write, byteParts_eq v (x := .bytes bs) rfl rfl rfl]
  | buffer bs => rw [write, byteParts_eq v (x := .buffer bs) rfl rfl rfl]
  | _ => simp only [write]; rfl

variable {v : Validator} {x : Value} {p : Place}

theorem write_of_ne_variant {t : SigType} (h : t ≠ .variant) :
    write v t p x = writePlain v t x (Parts.ofValue v x) p := by
  rw [write_eq]
  cases t <;> first | rfl | exact absurd rfl h

theorem write_basic (b : BasicType) :
    write v (.basic b) p x = Writing.appendValue v p b.char x := by
  rw [write_of_ne_variant (by simp)]
  rfl

theorem write_array {e : SigType} {xs : List Value} (h : x.sequence? = some xs) :
    write v (.array e) p x = (do
      Writing.call .signatureText
      Writing.inContainer p .array (some e.text) fun q => writeEach v e q xs) := by
  rw [write_of_ne_variant (by simp)]
  simp [writePlain, Parts.ofValue, h]

theorem write_array_of_none {e : SigType} (h : x.sequence? = none) :
    write v (.array e) p x = throw .arrayNeedsSequence := by
  rw [write_of_ne_variant (by simp)]
  simp [writePlain, Parts.ofValue, h]

/-- The text of the dict entries of an array. -/
def entryText (k : BasicType) (w : SigType) : String :=
  String.ofList ('{' :: k.char :: w.chars ++ ['}'])

theorem write_dict {k : BasicType} {w : SigType} {es : List (Value × Value)}
    (h : x.entries? = some es) :
    write v (.dict k w) p x = (do
      Writing.call .signatureText
      Writing.inContainer p .array (some (entryText k w)) fun q =>
        writeEntries v k w q es) := by
  rw [write_of_ne_variant (by simp)]
  simp [writePlain, Parts.ofValue, h, entryText, SigType.chars]

theorem write_dict_of_none {k : BasicType} {w : SigType} (h : x.entries? = none) :
    write v (.dict k w) p x = throw .entriesNeedMap := by
  rw [write_of_ne_variant (by simp)]
  simp [writePlain, Parts.ofValue, h]

theorem write_struct {fs : List SigType} {xs : List Value} (h : x.items? = some xs) :
    write v (.struct fs) p x =
      Writing.inContainer p .struct none fun q => writeFields v fs q xs := by
  rw [write_of_ne_variant (by simp)]
  simp [writePlain, Parts.ofValue, h]

theorem write_struct_of_none {fs : List SigType} (h : x.items? = none) :
    write v (.struct fs) p x = throw .structNeedsSequence := by
  rw [write_of_ne_variant (by simp)]
  simp [writePlain, Parts.ofValue, h]

theorem write_variant :
    write v .variant p x = writeVariant v x (Parts.ofValue v x) (x.level - 1) p := by
  rw [write_eq]
  rfl

/-- The contents of a variant are written as the fields of its guessed signature. -/
theorem writeGuessed_eq {s : String} {ts : List SigType} (h : x.guessPlain v = .ok s)
    (hts : readTypes? s = some ts) :
    writeGuessed v ts x (Parts.ofValue v x) p = writeFields v ts p [x] := by
  match ts with
  | [] => rfl
  | [t] =>
      have ht := Value.guessed_ne_variant h hts
      simp [writeGuessed, writeFields, write_of_ne_variant ht]
  | t :: u :: ts =>
      have ht := Value.guessed_ne_variant h hts
      simp [writeGuessed, writeFields, write_of_ne_variant ht]

/-- Elements are written as that many fields of one type. -/
theorem writeEach_eq_writeFields (e : SigType) (p : Place) (xs : List Value) :
    writeEach v e p xs = writeFields v (List.replicate xs.length e) p xs := by
  induction xs with
  | nil => rfl
  | cons x xs ih => simp only [writeEach, ih, List.length_cons, List.replicate_succ, writeFields]

/-! ## Induction over types and values -/

section Induction

variable {P : SigType → Value → Prop} (v)
  (basic : ∀ b x, P (.basic b) x)
  (array : ∀ e x, (∀ xs, x.sequence? = some xs → ∀ y ∈ xs, P e y) → P (.array e) x)
  (dict : ∀ k w x, (∀ es, x.entries? = some es → ∀ e ∈ es, P (.basic k) e.1 ∧ P w e.2) →
    P (.dict k w) x)
  (struct : ∀ fs x, (∀ xs, x.items? = some xs → ∀ t ∈ fs, ∀ y ∈ xs, P t y) →
    P (.struct fs) x)
  (variant : ∀ x, (∀ s t ts, x.guessPlain v = .ok s → readTypes? s = some (t :: ts) →
    P t x) → P .variant x)

include basic array dict struct variant

theorem typed_induction_step (x : Value)
    (hseq : ∀ xs, x.sequence? = some xs → ∀ y ∈ xs, ∀ t, P t y)
    (hentries : ∀ es, x.entries? = some es → ∀ e ∈ es, ∀ t, P t e.1 ∧ P t e.2)
    (t : SigType) : P t x := by
  have plain : ∀ t ≠ .variant, P t x := by
    intro t ht
    cases t with
    | basic b => exact basic b x
    | variant => exact absurd rfl ht
    | array e => exact array e x fun xs h y hy => hseq xs h y hy e
    | dict k w =>
        exact dict k w x fun es h e he => ⟨(hentries es h e he _).1, (hentries es h e he _).2⟩
    | struct fs =>
        refine struct fs x fun xs h t _ y hy => hseq xs ?_ y hy t
        exact Value.sequence?_eq_some_of_items? h
  by_cases ht : t = .variant
  · subst ht
    exact variant x fun s t ts h hts => plain t (Value.guessed_ne_variant h hts)
  · exact plain t ht

/-- To prove a property of all types and values, prove it for a container from what the
value offers, and for a variant from the type that is guessed. -/
theorem typed_induction (t : SigType) (x : Value) : P t x := by
  have byte : ∀ b t, P t (Value.ofByte b) := fun b =>
    typed_induction_step v basic array dict struct variant _ (by simp [Value.sequence?,
      Value.ofByte, Value.items?, Value.bytes?]) (by simp [Value.ofByte, Value.entries?])
  induction hn : sizeOf x using Nat.strongRecOn generalizing x t with
  | ind n ih =>
      subst hn
      refine typed_induction_step v basic array dict struct variant x ?_ ?_ t
      · intro xs h y hy t
        rcases Value.sizeOf_lt_of_mem_sequence? h hy with hlt | ⟨b, rfl⟩
        · exact ih _ hlt t y rfl
        · exact byte b t
      · intro es h e he t
        obtain ⟨hkey, hvalue⟩ := Value.sizeOf_lt_of_mem_entries? h he
        exact ⟨ih _ hkey t _ rfl, ih _ hvalue t _ rfl⟩

end Induction

end Marshal

end DBusHost
