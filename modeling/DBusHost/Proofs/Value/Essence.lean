import DBusHost.Proofs.Value.Rounding
import DBusHost.Value.Equality
import DBusHost.Value.Number

/-!
# What numbers and texts are compared by

Numbers and texts of any kind are the same if they have the same essence, which is an exact number,
an infinity or a text.  A NaN has none, and is the same as nothing.

The truth of a number and the double that it is rounded to depend on its essence only.
-/

namespace DBusHost

/-- What a number or a text is compared by. -/
inductive Essence where
  | number (q : ℚ)
  | infinity (negative : Bool)
  | text (s : String)

namespace Numeric

def essence? : Numeric → Option Essence
  | finite d => some (.number d.value)
  | infinite negative => some (.infinity negative)
  | nan => none

theorem same_iff {a b : Numeric} :
    a.same b = true ↔ ∃ p, a.essence? = some p ∧ b.essence? = some p := by
  cases a <;> cases b <;> simp [same, essence?, Dyadic.same_iff]
  all_goals exact eq_comm

theorem essence?_ne_text (a : Numeric) (s : String) : a.essence? ≠ some (.text s) := by
  cases a <;> simp [essence?]

theorem essence?_ofDouble {x : Binary64} (h : x.isFinite = true) :
    (ofDouble x).essence? = some (.number x.number) := by
  obtain ⟨d, hd⟩ := Binary64.exists_dyadic? h
  simp [ofDouble, hd, essence?, Binary64.value_of_dyadic? hd]

/-- Only a finite double has a number. -/
theorem number_of_essence? {x : Binary64} {q : ℚ} (h : (ofDouble x).essence? = some (.number q)) :
    x.isFinite = true ∧ x.number = q := by
  unfold ofDouble at h
  split at h
  · next d hd =>
    have hq : Essence.number d.value = .number q := Option.some.inj h
    rw [← Binary64.value_of_dyadic? hd]
    exact ⟨Binary64.isFinite_of_dyadic? hd, Essence.number.inj hq⟩
  · split at h <;> simp [essence?] at h

end Numeric

namespace Value

/-- What the value is compared by, if it is a number or a text. -/
def essence? (x : Value) : Option Essence :=
  match x.numeric? with
  | some n => n.essence?
  | none => x.text?.map .text

variable {x y : Value}

theorem essence?_of_numeric? {n : Numeric} (h : x.numeric? = some n) :
    x.essence? = n.essence? := by simp [essence?, h]

theorem numeric?_of_integer? {i : Int} (h : x.integer? = some i) :
    x.numeric? = some (.finite (.ofInt i)) := by
  cases x <;> simp only [integer?, reduceCtorEq, Option.some.injEq] at h <;> subst h <;> rfl

theorem essence?_of_integer? {i : Int} (h : x.integer? = some i) :
    x.essence? = some (.number i) := by
  rw [essence?_of_numeric? (numeric?_of_integer? h), Numeric.essence?, Dyadic.value_ofInt]

theorem essence?_of_text? {s : String} (h : x.text? = some s) : x.essence? = some (.text s) := by
  cases x <;> simp only [text?, reduceCtorEq, Option.some.injEq] at h <;> subst h <;> rfl

theorem text?_of_essence? {s : String} (h : x.essence? = some (.text s)) : x.text? = some s := by
  unfold essence? at h
  split at h
  · exact absurd h (Numeric.essence?_ne_text _ s)
  · simpa using h

/-- The value is a number or a text. -/
def IsPlain (x : Value) : Prop := x.numeric?.isSome = true ∨ x.text?.isSome = true

theorem sameLeaf_iff_of_text? {s : String} (hx : x.text? = some s) :
    x.sameLeaf y = true ↔ y.text? = some s := by
  cases x <;> simp only [text?, reduceCtorEq, Option.some.injEq] at hx <;> subst hx <;>
    cases y <;> simp [sameLeaf, numeric?, text?, bytes?]
  all_goals exact eq_comm

/-- A number or a text is the same as what has the same essence. -/
theorem IsPlain.same_iff (hx : x.IsPlain) :
    x.same y = true ↔ ∃ p, x.essence? = some p ∧ y.essence? = some p := by
  have hleaf : x.same y = x.sameLeaf y := by
    cases x <;> first | rfl | simp [IsPlain, numeric?, text?] at hx
  rw [hleaf]
  cases hn : x.numeric? with
  | some n =>
      rw [essence?_of_numeric? hn]
      cases hm : y.numeric? with
      | some m =>
          have hsame : x.sameLeaf y = n.same m := by simp [sameLeaf, hn, hm]
          rw [essence?_of_numeric? hm, hsame, Numeric.same_iff]
      | none =>
          have hdiffer : x.sameLeaf y = false := by
            cases x <;> simp only [numeric?, reduceCtorEq] at hn <;> cases y <;>
              simp only [numeric?, reduceCtorEq] at hm <;> rfl
          rw [hdiffer]
          simp only [Bool.false_eq_true, false_iff]
          rintro ⟨p, hp, hy⟩
          simp only [essence?, hm, Option.map_eq_some_iff] at hy
          obtain ⟨s, -, rfl⟩ := hy
          exact Numeric.essence?_ne_text n s hp
  | none =>
      obtain ⟨s, hs⟩ : ∃ s, x.text? = some s := by
        simpa [IsPlain, hn, Option.isSome_iff_exists] using hx
      rw [essence?_of_text? hs, sameLeaf_iff_of_text? hs]
      constructor
      · exact fun hy => ⟨_, rfl, essence?_of_text? hy⟩
      · rintro ⟨p, ⟨⟩, hy⟩
        exact text?_of_essence? hy

theorem IsPlain.same_comm (hx : x.IsPlain) (hy : y.IsPlain) : x.same y = y.same x := by
  rw [Bool.eq_iff_iff, hx.same_iff, hy.same_iff]
  exact exists_congr fun _ => and_comm

theorem isPlain_of_essence? {p : Essence} (h : x.essence? = some p) : x.IsPlain := by
  unfold essence? at h
  split at h
  · next n hn => exact .inl (Option.isSome_of_eq_some hn)
  · obtain ⟨s, hs, -⟩ := Option.map_eq_some_iff.mp h
    exact .inr (Option.isSome_of_eq_some hs)

/-- A number counts as true unless it is zero. -/
theorem truth_of_essence? {q : ℚ} (h : x.essence? = some (.number q)) :
    x.truth = true ↔ q ≠ 0 := by
  have hinteger : ∀ i : Int, x.integer? = some i → (q ≠ 0 ↔ i ≠ 0) := by
    intro i hi
    have hq := Option.some.inj ((essence?_of_integer? hi).symm.trans h)
    rw [← Essence.number.inj hq]
    simp
  cases x with
  | bool b =>
      rw [hinteger _ rfl]
      cases b <;> simp [truth, Bool.toInt]
  | int i | descriptor i =>
      rw [hinteger _ rfl]
      simp [truth]
  | double d =>
      obtain ⟨-, rfl⟩ := Numeric.number_of_essence? (x := d) h
      exact d.isNonzero_iff
  | _ => cases h

/-- Rounding keeps a number or a text that is the same as some double. -/
theorem essence?_of_toDouble {d e : Binary64} {p : Essence} (he : x.toDouble = .ok e)
    (hx : x.essence? = some p) (hd : (double d).essence? = some p) :
    (double e).essence? = some p := by
  cases x with
  | double _ =>
      obtain rfl := Except.ok.inj he
      exact hx
  | bool _ | int _ | descriptor _ =>
      obtain rfl := Option.some.inj ((essence?_of_integer? rfl).symm.trans hx)
      obtain ⟨-, hnumber⟩ := Numeric.number_of_essence? (x := d) hd
      simp only [toDouble, integer?] at he
      split at he
      · next hround =>
        obtain rfl := Except.ok.inj he
        obtain ⟨hfinite, heq⟩ := Binary64.number_ofInt? hnumber hround
        rw [← heq]
        exact Numeric.essence?_ofDouble hfinite
      · cases he
  | text _ | path _ | signature _ =>
      obtain rfl := Option.some.inj hx
      exact absurd hd (Numeric.essence?_ne_text (.ofDouble d) _)
  | _ => cases hx

end Value

end DBusHost
