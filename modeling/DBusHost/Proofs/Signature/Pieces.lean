import DBusHost.Proofs.Signature.Walking

/-!
# The complete types of a text

What is a complete type in a text can be said of any text, also of one that is no signature: it
starts at a character that is a type code and ends with the bracket that closes it.  A signature
that is taken apart gives such pieces of its text and nothing else.

In the text of types these pieces are the texts of the types.
-/

namespace DBusHost

open Attempt

/-- The characters are one of the complete types of a text: the first one, or one of those behind
the first one. -/
inductive IsTypeIn (piece : List Char) : List Char → Prop
  | first {cs : List Char} (hcode : Cursor.codeOf cs ≠ noType) (h : (splitType cs).1 = piece) :
      IsTypeIn piece cs
  | behind {cs : List Char} (hcode : Cursor.codeOf cs ≠ noType)
      (h : IsTypeIn piece (splitType cs).2) : IsTypeIn piece cs

/-- The validator accepts every complete type of a text that it accepts. -/
def Validator.AcceptsTypes (v : Validator) : Prop :=
  ∀ s t : String, v.sequence s = .valid → IsTypeIn t.toList s.toList → v.sequence t = .valid

/-- A complete type of a text has no characters of its own. -/
theorem IsTypeIn.subset {piece cs : List Char} (h : IsTypeIn piece cs) :
    ∀ c ∈ piece, c ∈ cs := by
  induction h with
  | @first cs hcode hpiece =>
      intro c hc
      rw [← splitType_append cs, hpiece]
      exact List.mem_append_left _ hc
  | @behind cs hcode h ih =>
      intro c hc
      rw [← splitType_append cs]
      exact List.mem_append_right _ (ih c hc)

/-- The complete types of the text of types are the texts of the types. -/
theorem isTypeIn_listChars {piece : List Char} {ts : List SigType} :
    IsTypeIn piece (SigType.listChars ts) ↔ ∃ t ∈ ts, t.chars = piece := by
  induction ts with
  | nil =>
      constructor
      · intro h
        cases h with
        | first hcode _ | behind hcode _ => exact absurd rfl hcode
      · simp
  | cons t ts ih =>
      have hcode : Cursor.codeOf (t.chars ++ SigType.listChars ts) ≠ noType := by
        rw [SigType.codeOf_chars]
        exact t.code_ne_noType
      have hsplit := t.splitType_chars (SigType.listChars ts)
      rw [SigType.listChars, List.exists_mem_cons_iff]
      constructor
      · intro h
        cases h with
        | first _ h => exact .inl (by rw [← h, hsplit])
        | behind _ h => exact .inr (ih.mp (by rwa [hsplit] at h))
      · rintro (rfl | h)
        · exact .first hcode (by rw [hsplit])
        · exact .behind hcode (by rw [hsplit]; exact ih.mpr h)

/-- An exact validator accepts the complete types of what it accepts. -/
theorem Validator.Exact.acceptsTypes {v : Validator} (hv : v.Exact) : v.AcceptsTypes := by
  intro s t hs ht
  obtain ⟨ts, rfl, hvalid⟩ := SigType.isWellFormed_iff.mp ((hv s).mp hs)
  rw [SigType.listText, String.toList_ofList, isTypeIn_listChars] at ht
  obtain ⟨u, hu, hchars⟩ := ht
  have htext : t = SigType.listText [u] := by
    rw [SigType.listText_singleton, SigType.text, hchars, String.ofList_toList]
  exact (hv t).mpr (SigType.isWellFormed_iff.mpr ⟨[u], htext, hvalid.of_mem u hu⟩)

namespace Cursor

/-- The text from the type on to which a loop moves the cursor next. -/
def ahead (c : Cursor) : List Char := if c.fresh then c.rest else (splitType c.rest).2

/-- A loop moves the cursor to the next type, if there is one. -/
theorem advance_eq_none {c c' : Cursor} (h : c.advance = (none, c')) :
    c'.rest = c.ahead ∧ c'.fresh = false ∧ codeOf c.ahead ≠ noType := by
  unfold advance at h
  unfold ahead
  cases hfresh : c.fresh with
  | true =>
      obtain ⟨hreason, rfl⟩ : _ ∧ _ := by simpa [hfresh] using h
      exact ⟨rfl, rfl, hreason⟩
  | false =>
      cases hnext : c.next? with
      | none => simp [hfresh, hnext] at h
      | some d =>
          obtain rfl : d = c' := by simpa [hfresh, hnext] using h
          simp only [next?, Option.ite_none_left_eq_some, not_or] at hnext
          obtain ⟨⟨-, hcode⟩, hd⟩ := hnext
          obtain rfl := Option.some.inj hd
          exact ⟨rfl, rfl, hcode⟩

theorem ensures_text {c : Cursor} (hcode : c.code ≠ noType) :
    Ensures c.text fun s => s.toList = (splitType c.rest).1 := by
  rw [text, if_neg hcode]
  refine (ensures_true _).bind fun _ _ => ensures_pure ?_
  rw [String.toList_ofList, current, if_neg hcode]

/-- A loop over a text gives complete types of it only. -/
theorem ensures_texts (n : Nat) (c : Cursor) :
    Ensures (texts n c) fun ss => ∀ s ∈ ss, IsTypeIn s.toList c.ahead := by
  induction n generalizing c with
  | zero => exact ensures_pure (by simp)
  | succ n ih =>
      unfold texts
      split
      · exact ensures_pure (by simp)
      case h_2 c' hadvance =>
        obtain ⟨hrest, hfresh, hcode⟩ := advance_eq_none hadvance
        refine (ensures_text (by rwa [code, hrest])).bind fun first hfirst => ?_
        refine (ih c').bind fun later hlater => ensures_pure ?_
        have hahead : c'.ahead = (splitType c.ahead).2 := by simp [ahead, hfresh, hrest]
        rw [List.forall_mem_cons]
        exact ⟨.first hcode (by rw [hfirst, hrest]),
          fun s hs => .behind hcode (hahead ▸ hlater s hs)⟩

end Cursor

/-- The pieces of a signature are complete types of its text. -/
theorem Signature.ensures_pieces (g : Signature) :
    Ensures g.pieces fun gs => ∀ p ∈ gs, IsTypeIn p.text.toList g.text.toList := by
  unfold pieces
  refine (Cursor.ensures_texts _ _).bind fun ss hss => ensures_pure ?_
  simpa [Cursor.ahead, Cursor.start] using hss

end DBusHost
