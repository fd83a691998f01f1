import DBusHost.Proofs.Signature.Reading
import DBusHost.Signature.Checked

/-!
# Well-formed signatures

The types of a well-formed signature are `Valid`: they keep the limits on length and
nesting.  The parts of valid types are valid again, so that every piece that is cut out
of a well-formed signature is a well-formed signature of its own.

A validator is exact if it accepts the well-formed texts and no others.
-/

namespace DBusHost

namespace SigType

/-- Types that keep the limits of signatures. -/
structure Valid (ts : List SigType) : Prop where
  nonempty : listHasFields ts = true
  size : (listText ts).utf8ByteSize ≤ maximumSignatureLength
  structs : listStructDepth ts ≤ maximumNesting
  entries : listEntryDepth ts ≤ maximumNesting
  arrays : listArrayRun ts ≤ maximumNesting

theorem isWellFormed_listText_iff {ts : List SigType} (h : listHasFields ts = true) :
    isWellFormed (listText ts) = true ↔ Valid ts := by
  simp only [isWellFormed, readTypes?_listText h, Bool.and_eq_true, decide_eq_true_eq]
  constructor
  · rintro ⟨⟨⟨hsize, hstructs⟩, hentries⟩, harrays⟩
    exact ⟨h, hsize, hstructs, hentries, harrays⟩
  · intro hvalid
    exact ⟨⟨⟨hvalid.size, hvalid.structs⟩, hvalid.entries⟩, hvalid.arrays⟩

/-- A well-formed text is the text of valid types. -/
theorem isWellFormed_iff {s : String} :
    isWellFormed s = true ↔ ∃ ts, s = listText ts ∧ Valid ts := by
  constructor
  · intro h
    cases hread : readTypes? s with
    | none => simp [isWellFormed, hread] at h
    | some ts =>
        obtain ⟨rfl, hfields⟩ := readTypes?_eq_some_iff.mp hread
        exact ⟨ts, rfl, (isWellFormed_listText_iff hfields).mp h⟩
  · rintro ⟨ts, rfl, hvalid⟩
    exact (isWellFormed_listText_iff hvalid.nonempty).mpr hvalid

theorem listText_singleton (t : SigType) : listText [t] = t.text := by
  simp [listText, listChars, text]

theorem listText_eq_of_append {ts us : List SigType} {front back : List Char}
    (h : listChars ts = front ++ listChars us ++ back) :
    listText ts = String.ofList front ++ listText us ++ String.ofList back := by
  rw [listText, h, String.ofList_append, String.ofList_append]
  rfl

theorem utf8ByteSize_le_of_append (ts us : List SigType) (front back : List Char)
    (h : listChars ts = front ++ listChars us ++ back) :
    (listText us).utf8ByteSize ≤ (listText ts).utf8ByteSize := by
  rw [listText_eq_of_append h, String.utf8ByteSize_append, String.utf8ByteSize_append]
  omega

theorem arrayRun_mono {m n : Nat} (h : m ≤ n) : (t : SigType) → arrayRun m t ≤ arrayRun n t
  | basic _ => by simpa [arrayRun] using h
  | variant => by simpa [arrayRun] using h
  | array e => by simpa [arrayRun] using arrayRun_mono (Nat.succ_le_succ h) e
  | dict _ w => by
      simp only [arrayRun]
      omega
  | struct fs => by
      simp only [arrayRun]
      omega

theorem valid_variant : Valid [variant] := by
  constructor <;> decide

namespace Valid

theorem head {t : SigType} {ts : List SigType} (h : Valid (t :: ts)) : Valid [t] := by
  obtain ⟨hfields, hsize, hstructs, hentries, harrays⟩ := h
  have hle := utf8ByteSize_le_of_append (t :: ts) [t] [] (listChars ts)
    (by simp [listChars])
  simp only [listHasFields, listStructDepth, listEntryDepth, listArrayRun,
    Bool.and_eq_true] at hfields hstructs hentries harrays
  constructor
  · simp [listHasFields, hfields.1]
  · omega
  · simp only [listStructDepth]
    omega
  · simp only [listEntryDepth]
    omega
  · simp only [listArrayRun]
    omega

theorem tail {t : SigType} {ts : List SigType} (h : Valid (t :: ts)) : Valid ts := by
  obtain ⟨hfields, hsize, hstructs, hentries, harrays⟩ := h
  have hle := utf8ByteSize_le_of_append (t :: ts) ts t.chars []
    (by simp [listChars])
  simp only [listHasFields, listStructDepth, listEntryDepth, listArrayRun,
    Bool.and_eq_true] at hfields hstructs hentries harrays
  exact ⟨hfields.2, by omega, by omega, by omega, by omega⟩

/-- Each of several valid types is valid on its own. -/
theorem of_mem {ts : List SigType} (h : Valid ts) : ∀ t ∈ ts, Valid [t] := by
  induction ts with
  | nil => simp
  | cons u us ih =>
      intro t ht
      rcases List.mem_cons.mp ht with rfl | ht
      · exact h.head
      · exact ih h.tail t ht

theorem element {e : SigType} (h : Valid [array e]) : Valid [e] := by
  obtain ⟨hfields, hsize, hstructs, hentries, harrays⟩ := h
  have hle := utf8ByteSize_le_of_append [array e] [e] ['a'] []
    (by simp [listChars, chars])
  have hrun := arrayRun_mono (Nat.zero_le (0 + 1)) e
  simp only [listHasFields, hasFields, listStructDepth, structDepth, listEntryDepth,
    entryDepth, listArrayRun, arrayRun] at hfields hstructs hentries harrays
  constructor
  · simpa [listHasFields] using hfields
  · omega
  · simpa [listStructDepth] using hstructs
  · simpa [listEntryDepth] using hentries
  · simp only [listArrayRun]
    omega

theorem entry {k : BasicType} {w : SigType} (h : Valid [dict k w]) :
    Valid [basic k, w] := by
  obtain ⟨hfields, hsize, hstructs, hentries, harrays⟩ := h
  have hle := utf8ByteSize_le_of_append [dict k w] [basic k, w] ['a', '{'] ['}']
    (by simp [listChars, chars])
  simp only [listHasFields, hasFields, listStructDepth, structDepth, listEntryDepth,
    entryDepth, listArrayRun, arrayRun] at hfields hstructs hentries harrays
  constructor
  · simpa [listHasFields, hasFields] using hfields
  · omega
  · simpa [listStructDepth, structDepth] using hstructs
  · simp only [listEntryDepth, entryDepth]
    omega
  · simp only [listArrayRun, arrayRun]
    omega

theorem fields {fs : List SigType} (h : Valid [struct fs]) : Valid fs := by
  obtain ⟨hfields, hsize, hstructs, hentries, harrays⟩ := h
  have hle := utf8ByteSize_le_of_append [struct fs] fs ['('] [')']
    (by simp [listChars, chars])
  simp only [listHasFields, hasFields, listStructDepth, structDepth, listEntryDepth,
    entryDepth, listArrayRun, arrayRun, Bool.and_eq_true] at hfields hstructs hentries harrays
  exact ⟨hfields.1.2, by omega, by omega, by omega, by omega⟩

end Valid

mutual

theorem nul_not_mem_chars : (t : SigType) → '\x00' ∉ t.chars
  | basic b => by
      simp [chars, b.char_not_mark.2.2.2.2.2.2.symm]
  | variant => by simp [chars]
  | array e => by simp [chars, nul_not_mem_chars e]
  | dict k w => by
      simp [chars, nul_not_mem_chars w, k.char_not_mark.2.2.2.2.2.2.symm]
  | struct fs => by simp [chars, nul_not_mem_listChars fs]

theorem nul_not_mem_listChars : (ts : List SigType) → '\x00' ∉ listChars ts
  | [] => by simp [listChars]
  | t :: ts => by simp [listChars, nul_not_mem_chars t, nul_not_mem_listChars ts]

end

theorem hasNul_listText (ts : List SigType) : Text.hasNul (listText ts) = false := by
  simp [Text.hasNul, listText, nul_not_mem_listChars ts]

end SigType

/-- A validator accepts the well-formed texts and no others. -/
def Validator.Exact (v : Validator) : Prop :=
  ∀ s, v.sequence s = .valid ↔ isWellFormed s = true

/-- The validator that asks whether a text is well-formed. -/
def Validator.ofGrammar : Validator where
  sequence s := if isWellFormed s then .valid else .refusal none
  single s := if isWellFormed s ∧ (readTypes? s).map List.length = some 1 then .valid
    else .refusal none

theorem Validator.exact_ofGrammar : ofGrammar.Exact := by
  intro s
  cases h : isWellFormed s <;> simp [ofGrammar, h, Verdict.refusal]

namespace Signature

/-- The types of an accepted text are what is read from it. -/
theorem readTypes?_of_types {v : Validator} {s : String} {g : Signature} {ts : List SigType}
    (hg : ofText v s = .ok g) (hts : g.types = .ok ts) : readTypes? s = some ts := by
  obtain rfl := (check_eq_ok_iff.mp hg).2.2
  unfold types at hts
  cases hread : readTypes? s with
  | none => simp [hread] at hts
  | some us => simpa [hread] using hts

/-- An exact validator accepts the text of valid types. -/
theorem ofText_listText {v : Validator} (hv : v.Exact) {ts : List SigType}
    (h : SigType.Valid ts) :
    ofText v (SigType.listText ts) = .ok ⟨SigType.listText ts⟩ := by
  refine check_eq_ok_iff.mpr ⟨SigType.hasNul_listText ts, ?_, rfl⟩
  exact (hv _).mpr ((SigType.isWellFormed_listText_iff h.nonempty).mpr h)

theorem ofText_text {v : Validator} (hv : v.Exact) {t : SigType} (h : SigType.Valid [t]) :
    ofText v t.text = .ok ⟨t.text⟩ := by
  rw [← SigType.listText_singleton]
  exact ofText_listText hv h

/-- A text that an exact validator accepts is the text of valid types. -/
theorem valid_of_check {v : Validator} (hv : v.Exact) {shown s : String} {g : Signature}
    (h : check v shown s = .ok g) : ∃ ts, s = SigType.listText ts ∧ SigType.Valid ts :=
  SigType.isWellFormed_iff.mp ((hv s).mp (check_eq_ok_iff.mp h).2.1)

/-- The types that are read from an accepted text are valid. -/
theorem valid_of_readTypes? {v : Validator} (hv : v.Exact) {s : String} {g : Signature}
    {ts : List SigType} (hs : ofText v s = .ok g) (hread : readTypes? s = some ts) :
    SigType.Valid ts := by
  obtain ⟨us, hus, hvalid⟩ := valid_of_check hv hs
  have htext := (readTypes?_eq_some_iff.mpr ⟨hus, hvalid.nonempty⟩).symm.trans hread
  exact Option.some.inj htext ▸ hvalid

end Signature

end DBusHost
