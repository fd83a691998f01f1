import DBusHost.BusError
import DBusHost.Proofs.Signature.Walking

/-!
# Asking the judge and making a signature

A text can be put to the judge, as a list of complete types or as one of them, and it can be made
a signature.  All three end up at the native library, which sees the part of a text before its
first nul.  Only the making of a signature looks for a nul before that.

So the answers agree on the texts without a nul.  What the judge is asked about a text with a nul
is whether the part before the nul would do, and such a text never becomes a signature.
-/

namespace DBusHost

open Attempt SigType

namespace Validator

/-- A validator accepts as one complete type the well-formed texts of one type and no others. -/
def SingleExact (v : Validator) : Prop :=
  ∀ s, v.single s = .valid ↔ isWellFormed s = true ∧ ∃ t, readTypes? s = some [t]

theorem singleExact_ofGrammar : ofGrammar.SingleExact := by
  intro s
  have hone : (readTypes? s).map List.length = some 1 ↔ ∃ t, readTypes? s = some [t] := by
    cases readTypes? s with
    | none => simp
    | some ts => simp [List.length_eq_one_iff]
  rw [← hone]
  unfold ofGrammar
  dsimp only
  split
  · next h => exact iff_of_true rfl h
  · next h => exact iff_of_false (by simp [Verdict.refusal]) h

/-- The answer is yes if the judge accepts what it sees of the text. -/
theorem ask_fst_iff {v : Validator} {single : Bool} {s : String} :
    (v.ask single s).1 = true ↔ v.judge single s = .valid := by
  unfold ask
  split <;> simp_all

end Validator

namespace Signature

variable {v : Validator} {s : String}

theorem exists_ofText_iff :
    (∃ g, ofText v s = .ok g) ↔ Text.hasNul s = false ∧ v.sequence s = .valid := by
  simp only [ofText, check_eq_ok_iff]
  constructor
  · rintro ⟨-, hnul, hvalid, -⟩
    exact ⟨hnul, hvalid⟩
  · rintro ⟨hnul, hvalid⟩
    exact ⟨_, hnul, hvalid, rfl⟩

/-- A text becomes a signature of one complete type if the judge accepts it as one. -/
theorem exists_single_iff (hv : v.Exact) (hv₁ : v.SingleExact) :
    (∃ g, ofText v s = .ok g ∧ ∃ p, Gives g.pieces [p]) ↔
      Text.hasNul s = false ∧ v.single s = .valid := by
  rw [hv₁]
  constructor
  · rintro ⟨g, hg, p, hp⟩
    obtain ⟨hnul, hvalid, rfl⟩ := check_eq_ok_iff.mp hg
    obtain ⟨ts, rfl, hts⟩ := valid_of_check hv hg
    have hlength := congrArg List.length ((gives_pieces ts).unique hp)
    simp only [List.length_map, List.length_singleton] at hlength
    obtain ⟨t, rfl⟩ := List.length_eq_one_iff.mp hlength
    exact ⟨hnul, (hv _).mp hvalid, t, readTypes?_eq_some_iff.mpr ⟨rfl, hts.nonempty⟩⟩
  · rintro ⟨-, hwell, t, hread⟩
    obtain ⟨rfl, hfields⟩ := readTypes?_eq_some_iff.mp hread
    exact ⟨_, ofText_listText hv ((isWellFormed_listText_iff hfields).mp hwell), _,
      gives_pieces [t]⟩

end Signature

namespace Validator

variable {v : Validator}

/-- Asking about a text is making a signature of its part before the first nul: the answer is yes
if that becomes a signature, and if it becomes one of a single complete type.  The text itself
becomes a signature if, in addition, it has no nul. -/
theorem ask_iff_ofText (hv : v.Exact) (hv₁ : v.SingleExact) (s : String) :
    ((v.ask false s).1 = true ↔ ∃ g, Signature.ofText v (Text.beforeNul s) = .ok g) ∧
      ((v.ask true s).1 = true ↔
        ∃ g, Signature.ofText v (Text.beforeNul s) = .ok g ∧ ∃ p, Gives g.pieces [p]) ∧
      ((∃ g, Signature.ofText v s = .ok g) ↔
        Text.hasNul s = false ∧ (v.ask false s).1 = true) ∧
      ((∃ g, Signature.ofText v s = .ok g ∧ ∃ p, Gives g.pieces [p]) ↔
        Text.hasNul s = false ∧ (v.ask true s).1 = true) := by
  have hsequence : (v.ask false s).1 = true ↔ v.sequence (Text.beforeNul s) = .valid := ask_fst_iff
  have hsingle : (v.ask true s).1 = true ↔ v.single (Text.beforeNul s) = .valid := ask_fst_iff
  have hbefore := Text.hasNul_beforeNul s
  rw [hsequence, hsingle]
  refine ⟨?_, ?_, ?_, ?_⟩
  · simp [Signature.exists_ofText_iff, hbefore]
  · simp [Signature.exists_single_iff hv hv₁, hbefore]
  · rw [Signature.exists_ofText_iff]
    refine and_congr_right fun hnul => ?_
    rw [Text.beforeNul_of_hasNul_eq_false hnul]
  · rw [Signature.exists_single_iff hv hv₁]
    refine and_congr_right fun hnul => ?_
    rw [Text.beforeNul_of_hasNul_eq_false hnul]

/-- A type with a nul behind it is a single complete type to the judge, and no signature. -/
theorem ask_iff_ofText_nul :
    ofGrammar.Exact ∧ ofGrammar.SingleExact ∧ (ofGrammar.ask true "i\x00").1 = true ∧
      (∃ g, Signature.ofText ofGrammar "i" = .ok g ∧ ∃ p, Gives g.pieces [p]) ∧
      ¬ ∃ g, Signature.ofText ofGrammar "i\x00" = .ok g := by
  obtain ⟨-, hsingle, hmade, -⟩ :=
    ask_iff_ofText exact_ofGrammar singleExact_ofGrammar "i\x00"
  have hbefore : Text.beforeNul "i\x00" = "i" := by decide
  have hyes : (ofGrammar.ask true "i\x00").1 = true := by decide +kernel
  have hnul : Text.hasNul "i\x00" = true := by decide
  rw [hbefore] at hsingle
  exact ⟨exact_ofGrammar, singleExact_ofGrammar, hyes, hsingle.mp hyes, fun h => by
    simpa [hnul] using (hmade.mp h).1⟩

end Validator

end DBusHost
