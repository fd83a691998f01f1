import DBusHost.Binary64
import Mathlib.Algebra.Order.Field.Power
import Mathlib.Algebra.Order.Ring.Rat
import Mathlib.Tactic.FieldSimp
import Mathlib.Tactic.Ring

/-!
# Integers that are doubles

A finite double denotes a number, and an integer is rounded to a double.  If the integer is the
number of some double, nothing is lost by rounding it: an integer of more than fifty-three bits can
only be the number of a double if its last bits are zero, and then the division by which it is
rounded leaves no rest.
-/

namespace DBusHost

/-- The number that a fraction denotes. -/
def Dyadic.value (a : Dyadic) : ℚ := a.num / 2 ^ a.shift

theorem Dyadic.same_iff {a b : Dyadic} : a.same b = true ↔ a.value = b.value := by
  have hpow : ∀ n : Nat, (2 : ℚ) ^ n ≠ 0 := fun n => pow_ne_zero n two_ne_zero
  rw [same, beq_iff_eq, value, value, div_eq_div_iff (hpow _) (hpow _), Int.shiftLeft_eq,
    Int.shiftLeft_eq]
  exact_mod_cast Iff.rfl

theorem Dyadic.value_ofInt (i : Int) : (Dyadic.ofInt i).value = i := by simp [value, ofInt]

theorem roundDiv_of_dvd {num den : Nat} (hden : 0 < den) (h : den ∣ num) :
    roundDiv num den = num / den := by
  simp [roundDiv, Nat.mod_eq_zero_of_dvd h, hden]

namespace Binary64

theorem leadingBit_eq : leadingBit = 2 ^ 52 := by decide

theorem signBit_eq : signBit = 2 ^ 63 := by decide

/-! ## The fields of a word -/

section

variable {negative : Bool} {e f : Nat}

theorem word_pack (he : e < 2048) (hf : f < 2 ^ 52) :
    (pack negative e f).word = (if negative then 2 ^ 63 else 0) + e * 2 ^ 52 + f := by
  have hlt : (if negative = true then 2 ^ 63 else 0) + e * 2 ^ 52 + f < 2 ^ 64 := by
    split <;> omega
  rw [word, pack, signBit_eq, leadingBit_eq]
  exact UInt64.toNat_ofNat_of_lt hlt

theorem exponentField_pack (he : e < 2048) (hf : f < 2 ^ 52) :
    (pack negative e f).exponentField = e := by
  rw [exponentField, word_pack he hf, leadingBit_eq]
  split <;> omega

theorem fraction_pack (he : e < 2048) (hf : f < 2 ^ 52) : (pack negative e f).fraction = f := by
  rw [fraction, word_pack he hf, leadingBit_eq]
  split <;> omega

theorem negative_pack (he : e < 2048) (hf : f < 2 ^ 52) :
    (pack negative e f).negative = negative := by
  rw [Binary64.negative, word_pack he hf, signBit_eq]
  cases negative <;> simp <;> omega

end

/-! ## The number of a word -/

/-- The number that a finite word denotes. -/
def number (x : Binary64) : ℚ :=
  (if x.negative then -(x.significand : ℚ) else x.significand) * 2 ^ x.scale

theorem significand_lt (x : Binary64) : x.significand < 2 ^ 53 := by
  have hfraction : x.fraction < leadingBit := Nat.mod_lt _ (by decide)
  rw [leadingBit_eq] at hfraction
  rw [significand, leadingBit_eq]
  split <;> omega

theorem value_of_dyadic? {x : Binary64} {d : Dyadic} (h : x.dyadic? = some d) :
    d.value = x.number := by
  unfold dyadic? at h
  split at h
  case isFalse => cases h
  case isTrue =>
    dsimp only at h
    split at h
    · next hscale =>
      obtain ⟨k, hk⟩ := Int.eq_ofNat_of_zero_le (Int.neg_nonneg_of_nonpos hscale.le)
      have hk' : x.scale = -(k : Int) := by omega
      obtain rfl := Option.some.inj h
      rw [number, Dyadic.value, hk', neg_neg, Int.toNat_natCast, zpow_neg, zpow_natCast,
        div_eq_mul_inv]
      split <;> simp
    · next hscale =>
      obtain ⟨k, hk⟩ := Int.eq_ofNat_of_zero_le (not_lt.mp hscale)
      obtain rfl := Option.some.inj h
      rw [number, Dyadic.value, hk, Int.toNat_natCast, zpow_natCast, Int.shiftLeft_eq]
      split <;> simp

theorem isFinite_of_dyadic? {x : Binary64} {d : Dyadic} (h : x.dyadic? = some d) :
    x.isFinite = true := by
  by_contra hnot
  simp [dyadic?, hnot] at h

theorem exists_dyadic? {x : Binary64} (h : x.isFinite = true) : ∃ d, x.dyadic? = some d := by
  simp only [dyadic?, h, if_true]
  split <;> exact ⟨_, rfl⟩

/-- A word is zero, of either sign, if that is its number. -/
theorem isNonzero_iff (x : Binary64) :
    x.isNonzero = true ↔ x.number ≠ 0 := by
  have hword : x.isNonzero = true ↔ x.significand ≠ 0 := by
    simp only [isNonzero, significand, exponentField, fraction, signBit_eq, leadingBit_eq,
      bne_iff_ne]
    split <;> omega
  have hscale : (2 : ℚ) ^ x.scale ≠ 0 := zpow_ne_zero _ two_ne_zero
  rw [hword, number]
  split <;> simp [hscale]

/-- A significand with its leading bit is kept, and so is its scale. -/
theorem number_pack (negative : Bool) {m : Nat} {q : Int} (hm : 2 ^ 52 ≤ m) (hm' : m < 2 ^ 53)
    (hq : -1074 ≤ q) (hq' : q ≤ 971) :
    (pack negative (q + 1075).toNat (m - leadingBit)).isFinite = true ∧
      (pack negative (q + 1075).toNat (m - leadingBit)).number =
        (if negative then -(m : ℚ) else m) * 2 ^ q := by
  have he : (q + 1075).toNat < 2048 := by omega
  have hf : m - leadingBit < 2 ^ 52 := by rw [leadingBit_eq]; omega
  have hfield : (pack negative (q + 1075).toNat (m - leadingBit)).exponentField =
      (q + 1075).toNat := exponentField_pack he hf
  have hzero : (q + 1075).toNat ≠ 0 := by omega
  have hlast : (q + 1075).toNat ≠ 2047 := by omega
  have hsignificand :
      (pack negative (q + 1075).toNat (m - leadingBit)).significand = m := by
    rw [significand, hfield, if_neg hzero, fraction_pack he hf, leadingBit_eq]
    omega
  have hscale : (pack negative (q + 1075).toNat (m - leadingBit)).scale = q := by
    rw [scale, hfield, if_neg hzero]
    omega
  exact ⟨by simpa [isFinite, hfield] using hlast,
    by rw [number, hsignificand, hscale, negative_pack he hf]⟩

/-! ## Rounding an integer -/

theorem number_zero (negative : Bool) :
    (zero negative).isFinite = true ∧ (zero negative).number = 0 := by
  have hsignificand : (zero negative).significand = 0 := by cases negative <;> decide
  exact ⟨by cases negative <;> decide, by simp [number, hsignificand]⟩

theorem binaryExponent_one {n : Nat} (hn : n ≠ 0) : binaryExponent n 1 = Nat.log2 n := by
  have hone : Nat.log2 1 = 0 := by decide
  have hle : 1 <<< Nat.log2 n ≤ n := by
    rw [Nat.one_shiftLeft]
    exact Nat.log2_self_le hn
  simp [binaryExponent, hone, hle]

/-- An integer whose last bits are zero has a significand of its own. -/
theorem exists_ofScaled {n : Nat} (negative : Bool) (hn : n ≠ 0)
    (hdvd : 2 ^ (Nat.log2 n - 52) ∣ n) : ∃ (m : Nat) (q : Int), 2 ^ 52 ≤ m ∧ m < 2 ^ 53 ∧
      -1074 ≤ q ∧ (m : ℚ) * 2 ^ q = n ∧ ofRatio negative n 1 = ofScaled negative m q := by
  have hle := Nat.log2_self_le hn
  have hlt := Nat.lt_log2_self (n := n)
  have hq : max (binaryExponent n 1 - 52) (-1074) = (Nat.log2 n : Int) - 52 := by
    rw [binaryExponent_one hn]
    omega
  simp only [ofRatio, hn, if_false, hq]
  rcases Nat.lt_or_ge (Nat.log2 n) 52 with hlog | hlog
  · obtain ⟨k, hk⟩ := Nat.exists_eq_add_of_le hlog.le
    have hneg : ¬ (0 : Int) ≤ (Nat.log2 n : Int) - 52 := by omega
    have htoNat : (-((Nat.log2 n : Int) - 52)).toNat = k := by omega
    have hexponent : (Nat.log2 n : Int) - 52 = -(k : Int) := by omega
    rw [if_neg hneg, htoNat, roundDiv_of_dvd Nat.one_pos (Nat.one_dvd _), Nat.div_one,
      Nat.shiftLeft_eq]
    refine ⟨n * 2 ^ k, _, ?_, ?_, by omega, ?_, rfl⟩
    · calc 2 ^ 52 = 2 ^ Nat.log2 n * 2 ^ k := by rw [hk, Nat.pow_add]
        _ ≤ n * 2 ^ k := Nat.mul_le_mul_right _ hle
    · calc n * 2 ^ k < 2 ^ (Nat.log2 n + 1) * 2 ^ k :=
            Nat.mul_lt_mul_of_pos_right hlt (Nat.two_pow_pos k)
        _ = 2 ^ 53 := by rw [← Nat.pow_add]; congr 1; omega
    · rw [hexponent, zpow_neg, zpow_natCast]
      push_cast
      field_simp
  · obtain ⟨k, hk⟩ := Nat.exists_eq_add_of_le hlog
    have hsub : Nat.log2 n - 52 = k := by omega
    rw [hsub] at hdvd
    obtain ⟨m, rfl⟩ := hdvd
    have hnonneg : (0 : Int) ≤ (Nat.log2 (2 ^ k * m) : Int) - 52 := by omega
    have htoNat : ((Nat.log2 (2 ^ k * m) : Int) - 52).toNat = k := by omega
    have hpos : 0 < 2 ^ k := Nat.two_pow_pos k
    have hdiv : roundDiv (2 ^ k * m) (1 <<< k) = m := by
      rw [Nat.one_shiftLeft, roundDiv_of_dvd hpos (Nat.dvd_mul_right _ _),
        Nat.mul_div_cancel_left m hpos]
    rw [if_pos hnonneg, htoNat, hdiv]
    refine ⟨m, _, ?_, ?_, by omega, ?_, rfl⟩
    · rw [hk, Nat.add_comm, Nat.pow_add] at hle
      exact Nat.le_of_mul_le_mul_left hle hpos
    · rw [hk, Nat.add_comm 52 k, Nat.add_assoc, Nat.pow_add] at hlt
      exact Nat.lt_of_mul_lt_mul_left hlt
    · have hexponent : (Nat.log2 (2 ^ k * m) : Int) - 52 = k := by omega
      rw [hexponent, zpow_natCast]
      push_cast
      ring

/-- An integer whose last bits are zero is rounded to itself, unless it is too large. -/
theorem number_ofRatio {n : Nat} (negative : Bool) (hn : n ≠ 0)
    (hdvd : 2 ^ (Nat.log2 n - 52) ∣ n)
    (hfinite : (ofRatio negative n 1).isInfinite = false) :
    (ofRatio negative n 1).isFinite = true ∧
      (ofRatio negative n 1).number = if negative then -(n : ℚ) else n := by
  obtain ⟨m, q, hm, hm', hq, hvalue, heq⟩ := exists_ofScaled negative hn hdvd
  have htop : m ≠ 2 * leadingBit := by
    rw [leadingBit_eq]
    omega
  have hbottom : ¬ m < leadingBit := by
    rw [leadingBit_eq]
    omega
  rw [heq] at hfinite ⊢
  simp only [ofScaled, htop, if_false, hbottom] at hfinite ⊢
  split at hfinite
  · next hlarge =>
    exact absurd hfinite (by cases negative <;> decide)
  · next hsmall =>
    rw [if_neg hsmall]
    obtain ⟨hfin, hnumber⟩ := number_pack negative hm hm' hq (not_lt.mp hsmall)
    refine ⟨hfin, ?_⟩
    rw [hnumber, ← hvalue]
    cases negative <;> simp

/-- The number of a word has no more than fifty-three bits that are not zero at its end. -/
theorem dvd_of_number {a : Binary64} {i : Int} (h : a.number = i) (hi : i ≠ 0) :
    2 ^ (Nat.log2 i.natAbs - 52) ∣ i.natAbs := by
  have habs : (i.natAbs : ℚ) = a.significand * 2 ^ a.scale := by
    have hpos : (0 : ℚ) < 2 ^ a.scale := zpow_pos two_pos _
    rw [Nat.cast_natAbs, Int.cast_abs, ← h, number, abs_mul, abs_of_pos hpos]
    split <;> simp
  have hle := Nat.log2_self_le (Int.natAbs_ne_zero.mpr hi)
  have hlt := a.significand_lt
  rcases Int.le_total 0 a.scale with hscale | hscale
  · obtain ⟨k, hk⟩ := Int.eq_ofNat_of_zero_le hscale
    have hnat : i.natAbs = a.significand * 2 ^ k := by
      rw [hk, zpow_natCast] at habs
      exact_mod_cast habs
    rcases Nat.lt_or_ge k (Nat.log2 i.natAbs - 52) with hshort | hlong
    · have hbound : i.natAbs < 2 ^ Nat.log2 i.natAbs := by
        calc i.natAbs < 2 ^ 53 * 2 ^ k := by
              rw [hnat]
              exact Nat.mul_lt_mul_of_pos_right hlt (Nat.two_pow_pos k)
          _ = 2 ^ (53 + k) := (Nat.pow_add 2 53 k).symm
          _ ≤ 2 ^ Nat.log2 i.natAbs := Nat.pow_le_pow_right two_pos (by omega)
      exact absurd hle (not_le.mpr hbound)
    · exact Nat.dvd_trans (Nat.pow_dvd_pow 2 hlong) (hnat ▸ Nat.dvd_mul_left _ _)
  · obtain ⟨k, hk⟩ := Int.eq_ofNat_of_zero_le (Int.neg_nonneg_of_nonpos hscale)
    have hk' : a.scale = -(k : Int) := by omega
    have hnat : i.natAbs * 2 ^ k = a.significand := by
      rw [hk', zpow_neg, zpow_natCast] at habs
      field_simp at habs
      exact_mod_cast habs
    have hsmall : Nat.log2 i.natAbs < 53 := by
      refine (Nat.log2_lt (Int.natAbs_ne_zero.mpr hi)).mpr (Nat.lt_of_le_of_lt ?_ hlt)
      rw [← hnat]
      exact Nat.le_mul_of_pos_right _ (Nat.two_pow_pos k)
    have hzero : Nat.log2 i.natAbs - 52 = 0 := by omega
    simp [hzero]

/-- Rounding keeps an integer that is the number of some word. -/
theorem number_ofInt? {a b : Binary64} {i : Int} (ha : a.number = i) (hb : ofInt? i = some b) :
    b.isFinite = true ∧ b.number = i := by
  unfold ofInt? at hb
  dsimp only at hb
  split at hb
  · cases hb
  · next hfinite =>
    obtain rfl := Option.some.inj hb
    by_cases hi : i = 0
    · subst hi
      simpa [ofRatio] using number_zero false
    · rw [Bool.not_eq_true] at hfinite
      obtain ⟨hfin, hnumber⟩ :=
        number_ofRatio (i < 0) (Int.natAbs_ne_zero.mpr hi) (dvd_of_number ha hi) hfinite
      refine ⟨hfin, ?_⟩
      have habs : ((i.natAbs : Int) : ℚ) = i.natAbs := Int.cast_natCast _
      rw [hnumber, ← habs]
      split
      · next hneg =>
        rw [decide_eq_true_eq] at hneg
        rw [← Int.cast_neg]
        congr 1
        omega
      · next hpos =>
        rw [decide_eq_true_eq] at hpos
        congr 1
        omega

end Binary64

end DBusHost
