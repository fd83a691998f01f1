import DBusHost.Proofs.Value.Rounding
import Mathlib.Algebra.Order.Field.Basic
import Mathlib.Tactic.Linarith

/-!
# The nearest double

A ratio is rounded to a word of fifty-three bits.  Which power of two the last of these bits counts
depends on the size of the ratio, and rounding never takes a ratio across a power of two.  So on
which side of a word the rounded ratio lies can be told from the ratio itself: the border is halfway
to the next word on the other side, and belongs to the word with the even significand.
-/

namespace DBusHost

section

variable {num den k : Nat}

theorem roundDiv_le (hden : 0 < den) (h : num ≤ k * den) : roundDiv num den ≤ k := by
  have hq : num / den ≤ k := Nat.div_le_of_le_mul (Nat.mul_comm k den ▸ h)
  have hnum := Nat.div_add_mod num den
  have hzero : num / den = k → num % den = 0 := by
    rintro rfl
    rw [Nat.mul_comm] at h
    omega
  unfold roundDiv
  dsimp only
  split
  · exact hq
  · have hlt : num / den < k := by
      refine lt_of_le_of_ne hq fun heq => ?_
      have := hzero heq
      omega
    split
    · omega
    · split <;> omega

theorem le_roundDiv (hden : 0 < den) (h : k * den ≤ num) : k ≤ roundDiv num den := by
  have hq : k ≤ num / den := (Nat.le_div_iff_mul_le hden).mpr h
  unfold roundDiv
  dsimp only
  split
  · exact hq
  · split
    · omega
    · split <;> omega

/-- A number is at most halfway from an integer to the next one; halfway itself belongs to the even
one of the two. -/
def UpToHalfway (k : Nat) (y : ℚ) : Prop := if k % 2 = 0 then y ≤ k + 1 / 2 else y < k + 1 / 2

theorem upToHalfway_of_le {y : ℚ} (h : y ≤ k) : UpToHalfway k y := by
  unfold UpToHalfway
  split <;> linarith

theorem not_upToHalfway {y : ℚ} (h : k + 1 ≤ y) : ¬ UpToHalfway k y := by
  unfold UpToHalfway
  split <;> intro hle <;> linarith

theorem upToHalfway_div_iff (hden : 0 < den) :
    UpToHalfway k (num / den) ↔ 2 * num + k % 2 ≤ (2 * k + 1) * den := by
  have hpos : (0 : ℚ) < den := Nat.cast_pos.mpr hden
  have hle : 2 * num ≤ (2 * k + 1) * den ↔ (num / den : ℚ) ≤ k + 1 / 2 := by
    rw [div_le_iff₀ hpos, ← Nat.cast_le (α := ℚ)]
    push_cast
    constructor <;> intro h <;> linarith
  have hlt : 2 * num < (2 * k + 1) * den ↔ (num / den : ℚ) < k + 1 / 2 := by
    rw [div_lt_iff₀ hpos, ← Nat.cast_lt (α := ℚ)]
    push_cast
    constructor <;> intro h <;> linarith
  unfold UpToHalfway
  split
  · rw [← hle]
    omega
  · rw [← hlt]
    omega

/-- A quotient is rounded to a number or to one below it if it is at most halfway to the next. -/
theorem roundDiv_le_iff (hden : 0 < den) :
    roundDiv num den ≤ k ↔ UpToHalfway k (num / den) := by
  have hnum := Nat.div_add_mod num den
  have hfloor := Nat.mul_div_le num den
  have hmod := Nat.mod_lt num hden
  have hparity : 0 ≤ k % 2 ∧ k % 2 < 2 := ⟨Nat.zero_le _, Nat.mod_lt k two_pos⟩
  rw [upToHalfway_div_iff hden]
  rcases Nat.lt_trichotomy (num / den) k with hlt | heq | hgt
  · have hle : den * (num / den + 1) ≤ den * k := Nat.mul_le_mul_left _ hlt
    refine iff_of_true (roundDiv_le hden ?_) ?_ <;> linarith
  · have hrounded : roundDiv num den ≤ k ↔ 2 * (num % den) + k % 2 ≤ den := by
      unfold roundDiv
      dsimp only
      split
      · omega
      · split
        · omega
        · split <;> omega
    rw [heq] at hnum
    rw [hrounded]
    constructor <;> intro h <;> linarith
  · have hle : den * (k + 1) ≤ den * (num / den) := Nat.mul_le_mul_left _ hgt
    refine iff_of_false (not_le.mpr (le_roundDiv hden ?_)) (not_le.mpr ?_) <;> linarith

end

/-- The integer that a fraction is rounded to. -/
theorem Dyadic.natAbs_round_le_iff {a : Dyadic} {k : Nat} :
    a.round.natAbs ≤ k ↔ UpToHalfway k |a.value| := by
  have hden : 0 < 1 <<< a.shift := by simp [Nat.one_shiftLeft]
  have hround : a.round.natAbs = roundDiv a.num.natAbs (1 <<< a.shift) := by
    simp only [round]
    split <;> omega
  have hvalue : |a.value| = (a.num.natAbs : ℚ) / (1 <<< a.shift : Nat) := by
    have hpos : (0 : ℚ) < 2 ^ a.shift := pow_pos two_pos _
    rw [value, abs_div, abs_of_pos hpos, Nat.cast_natAbs, Int.cast_abs, Nat.one_shiftLeft]
    push_cast
    rfl
  rw [hround, hvalue, roundDiv_le_iff hden]

namespace Binary64

variable {num den : Nat}

/-- The difference of the two logarithms is the exponent or one more than it. -/
theorem binaryExponent_eq (hden : den ≠ 0) : binaryExponent num den =
    if (2 : ℚ) ^ ((num.log2 : Int) - den.log2) ≤ num / den then (num.log2 : Int) - den.log2
    else (num.log2 : Int) - den.log2 - 1 := by
  have hpos : (0 : ℚ) < den := by exact_mod_cast Nat.pos_of_ne_zero hden
  unfold binaryExponent
  generalize (num.log2 : Int) - den.log2 = guess
  have hreaches : (if 0 ≤ guess then decide (den <<< guess.toNat ≤ num)
      else decide (den ≤ num <<< (-guess).toNat)) = decide ((2 : ℚ) ^ guess ≤ num / den) := by
    split
    · next h =>
      obtain ⟨k, rfl⟩ := Int.eq_ofNat_of_zero_le h
      rw [decide_eq_decide, le_div_iff₀ hpos, Int.toNat_natCast, Nat.shiftLeft_eq, zpow_natCast,
        mul_comm]
      exact_mod_cast Iff.rfl
    · next h =>
      obtain ⟨k, hk⟩ := Int.eq_ofNat_of_zero_le (Int.neg_nonneg_of_nonpos (not_le.mp h).le)
      obtain rfl : guess = -(k : Int) := by omega
      rw [decide_eq_decide, le_div_iff₀ hpos, neg_neg, Int.toNat_natCast, Nat.shiftLeft_eq,
        zpow_neg, zpow_natCast, inv_mul_le_iff₀ (pow_pos two_pos _), mul_comm]
      exact_mod_cast Iff.rfl
  simp only [hreaches, decide_eq_true_eq]

/-- The exponent is that of the power of two just at or below the ratio. -/
theorem binaryExponent_spec (hnum : num ≠ 0) (hden : den ≠ 0) :
    (2 : ℚ) ^ binaryExponent num den ≤ num / den ∧
      (num / den : ℚ) < 2 ^ (binaryExponent num den + 1) := by
  have hpos : (0 : ℚ) < den := by exact_mod_cast Nat.pos_of_ne_zero hden
  have hnumLe : (2 : ℚ) ^ (num.log2 : Int) ≤ num := by exact_mod_cast Nat.log2_self_le hnum
  have hnumLt : (num : ℚ) < 2 ^ ((num.log2 : Int) + 1) := by exact_mod_cast Nat.lt_log2_self
  have hdenLe : (2 : ℚ) ^ (den.log2 : Int) ≤ den := by exact_mod_cast Nat.log2_self_le hden
  have hdenLt : (den : ℚ) < 2 ^ ((den.log2 : Int) + 1) := by exact_mod_cast Nat.lt_log2_self
  have hbelow : (2 : ℚ) ^ ((num.log2 : Int) - den.log2 - 1) ≤ num / den := by
    rw [le_div_iff₀ hpos]
    calc (2 : ℚ) ^ ((num.log2 : Int) - den.log2 - 1) * den
        ≤ 2 ^ ((num.log2 : Int) - den.log2 - 1) * 2 ^ ((den.log2 : Int) + 1) :=
          mul_le_mul_of_nonneg_left hdenLt.le (zpow_nonneg two_pos.le _)
      _ = 2 ^ (num.log2 : Int) := by
          rw [← zpow_add₀ two_ne_zero]
          congr 1
          omega
      _ ≤ num := hnumLe
  have habove : (num / den : ℚ) < 2 ^ ((num.log2 : Int) - den.log2 + 1) := by
    rw [div_lt_iff₀ hpos]
    calc (num : ℚ) < 2 ^ ((num.log2 : Int) + 1) := hnumLt
      _ = 2 ^ ((num.log2 : Int) - den.log2 + 1) * 2 ^ (den.log2 : Int) := by
          rw [← zpow_add₀ two_ne_zero]
          congr 1
          omega
      _ ≤ 2 ^ ((num.log2 : Int) - den.log2 + 1) * den :=
          mul_le_mul_of_nonneg_left hdenLe (zpow_nonneg two_pos.le _)
  rw [binaryExponent_eq hden]
  split
  · next h => exact ⟨h, habove⟩
  · next h =>
    rw [sub_add_cancel]
    exact ⟨hbelow, not_le.mp h⟩

/-- A ratio, the power of two below it, and the significand to which it is rounded: the integer
nearest to the ratio in units of a power of two, which leave room for fifty-three bits unless they
are the least ones. -/
structure Scaled (y : ℚ) (e : Int) (m : Nat) (q : Int) : Prop where
  le : (2 : ℚ) ^ e ≤ y
  lt : y < 2 ^ (e + 1)
  scale : q = max (e - 52) (-1074)
  rounded : ∃ num den : Nat, 0 < den ∧ (num / den : ℚ) = y / 2 ^ q ∧ m = roundDiv num den

theorem exists_scaled (negative : Bool) (hnum : num ≠ 0) (hden : den ≠ 0) : ∃ e m q,
    Scaled (num / den) e m q ∧ ofRatio negative num den = ofScaled negative m q := by
  obtain ⟨hle, hlt⟩ := binaryExponent_spec hnum hden
  refine ⟨binaryExponent num den, _, _, ⟨hle, hlt, rfl, ?_⟩,
    by simp only [ofRatio, hnum, if_false]; rfl⟩
  split
  · next h =>
    obtain ⟨k, hk⟩ := Int.eq_ofNat_of_zero_le h
    refine ⟨_, _, ?_, ?_, rfl⟩
    · rw [Nat.shiftLeft_eq]
      exact Nat.mul_pos (Nat.pos_of_ne_zero hden) (Nat.two_pow_pos _)
    · rw [hk, Int.toNat_natCast, Nat.shiftLeft_eq, zpow_natCast]
      push_cast
      rw [div_div]
  · next h =>
    obtain ⟨k, hk⟩ := Int.eq_ofNat_of_zero_le (Int.neg_nonneg_of_nonpos (not_le.mp h).le)
    refine ⟨_, _, Nat.pos_of_ne_zero hden, ?_, rfl⟩
    have hq : max (binaryExponent num den - 52) (-1074) = -(k : Int) := by omega
    rw [hq, neg_neg, Int.toNat_natCast, Nat.shiftLeft_eq, zpow_neg, zpow_natCast]
    push_cast
    field_simp

namespace Scaled

variable {y : ℚ} {e : Int} {m : Nat} {q : Int}

theorem le_scale (h : Scaled y e m q) : -1074 ≤ q := by
  rw [h.scale]
  omega

/-- The significand is at most an integer if the ratio is at most halfway behind that. -/
theorem le_iff (h : Scaled y e m q) (k : Nat) : m ≤ k ↔ UpToHalfway k (y / 2 ^ q) := by
  obtain ⟨num, den, hden, hratio, rfl⟩ := h.rounded
  rw [roundDiv_le_iff hden, hratio]

/-- Rounding does not take the ratio below an integer. -/
theorem le_significand (h : Scaled y e m q) {k : Nat} (hk : k ≤ y / 2 ^ q) : k ≤ m := by
  obtain ⟨num, den, hden, hratio, rfl⟩ := h.rounded
  rw [← hratio, le_div_iff₀ (Nat.cast_pos.mpr hden)] at hk
  exact le_roundDiv hden (by exact_mod_cast hk)

/-- Rounding does not take the ratio above an integer. -/
theorem significand_le (h : Scaled y e m q) {k : Nat} (hk : y / 2 ^ q ≤ k) : m ≤ k := by
  obtain ⟨num, den, hden, hratio, rfl⟩ := h.rounded
  rw [← hratio, div_le_iff₀ (Nat.cast_pos.mpr hden)] at hk
  exact roundDiv_le hden (by exact_mod_cast hk)

/-- A rounded ratio is at most a power of two if the ratio is below it. -/
theorem le_pow (h : Scaled y e m q) {k : Int} (hk : -1074 ≤ k) (hy : y < 2 ^ k) :
    (m : ℚ) * 2 ^ q ≤ 2 ^ k := by
  have hek : e < k := (zpow_lt_zpow_iff_right₀ one_lt_two).mp (h.le.trans_lt hy)
  have hqk : q ≤ k := by
    rw [h.scale]
    omega
  obtain ⟨n, hn⟩ := Int.eq_ofNat_of_zero_le (sub_nonneg.mpr hqk)
  have hpow : (2 : ℚ) ^ k = (2 ^ n : Nat) * 2 ^ q := by
    push_cast
    rw [← zpow_natCast, ← hn, ← zpow_add₀ two_ne_zero, sub_add_cancel]
  have hpos : (0 : ℚ) < 2 ^ q := zpow_pos two_pos q
  have hm : m ≤ 2 ^ n := by
    apply h.significand_le
    rw [div_le_iff₀ hpos, ← hpow]
    exact hy.le
  rw [hpow]
  exact mul_le_mul_of_nonneg_right (by exact_mod_cast hm) hpos.le

/-- A rounded ratio is at least a power of two if the ratio itself is. -/
theorem pow_le (h : Scaled y e m q) {k : Int} (hk : -1022 ≤ k) (hy : 2 ^ k ≤ y) :
    2 ^ k ≤ (m : ℚ) * 2 ^ q := by
  have hke : k < e + 1 := (zpow_lt_zpow_iff_right₀ one_lt_two).mp (hy.trans_lt h.lt)
  have hq : e = 52 + q := by
    rw [h.scale]
    omega
  have hpow : (2 : ℚ) ^ e = (2 ^ 52 : Nat) * 2 ^ q := by
    rw [hq, zpow_add₀ two_ne_zero]
    norm_num
  have hpos : (0 : ℚ) < 2 ^ q := zpow_pos two_pos q
  have hm : 2 ^ 52 ≤ m := by
    apply h.le_significand
    rw [le_div_iff₀ hpos, ← hpow]
    exact h.le
  calc (2 : ℚ) ^ k ≤ 2 ^ e := zpow_le_zpow_right₀ one_le_two (by omega)
    _ = (2 ^ 52 : Nat) * 2 ^ q := hpow
    _ ≤ m * 2 ^ q := mul_le_mul_of_nonneg_right (by exact_mod_cast hm) hpos.le

/-- A ratio lies below or above all words of a scale, and so does the rounded one, or it is rounded
at that scale. -/
theorem cases_scale (h : Scaled y e m q) {r : Int} (hr : -1074 ≤ r) :
    (y / 2 ^ r ≤ 2 ^ 52 ∧ (m : ℚ) * 2 ^ q ≤ 2 ^ 52 * 2 ^ r) ∨ q = r ∨
      (2 ^ 53 ≤ y / 2 ^ r ∧ 2 ^ 53 * 2 ^ r ≤ (m : ℚ) * 2 ^ q) := by
  have hpos : (0 : ℚ) < 2 ^ r := zpow_pos two_pos r
  have hlower : (2 : ℚ) ^ (52 + r) = 2 ^ 52 * 2 ^ r := by
    rw [zpow_add₀ two_ne_zero]
    norm_num
  have hupper : (2 : ℚ) ^ (53 + r) = 2 ^ 53 * 2 ^ r := by
    rw [zpow_add₀ two_ne_zero]
    norm_num
  rw [div_le_iff₀ hpos, le_div_iff₀ hpos, ← hlower, ← hupper]
  rcases lt_or_ge y (2 ^ (52 + r)) with hbelow | hbelow
  · exact .inl ⟨hbelow.le, h.le_pow (by omega) hbelow⟩
  rcases lt_or_ge y (2 ^ (53 + r)) with habove | habove
  · have hlower : 52 + r < e + 1 := (zpow_lt_zpow_iff_right₀ one_lt_two).mp (hbelow.trans_lt h.lt)
    have hupper : e < 53 + r := (zpow_lt_zpow_iff_right₀ one_lt_two).mp (h.le.trans_lt habove)
    refine .inr (.inl ?_)
    rw [h.scale]
    omega
  · exact .inr (.inr ⟨habove, h.pow_le (by omega) habove⟩)

variable {n : Nat} {r : Int}

/-- The rounded ratio is at most a word if the ratio is at most halfway to the next word. -/
theorem rounded_le_iff (h : Scaled y e m q) (hr : -1074 ≤ r) (hn : 2 ^ 52 ≤ n) (hn' : n < 2 ^ 53) :
    (m : ℚ) * 2 ^ q ≤ n * 2 ^ r ↔ UpToHalfway n (y / 2 ^ r) := by
  have hpos : (0 : ℚ) < 2 ^ r := zpow_pos two_pos r
  have hcast : (2 : ℚ) ^ 52 ≤ n := by exact_mod_cast hn
  have hcast' : (n : ℚ) + 1 ≤ 2 ^ 53 := by exact_mod_cast hn'
  obtain ⟨hy, hm⟩ | rfl | ⟨hy, hm⟩ := h.cases_scale hr
  · refine iff_of_true (hm.trans ?_) (upToHalfway_of_le (hy.trans hcast))
    exact mul_le_mul_of_nonneg_right hcast hpos.le
  · rw [mul_le_mul_iff_left₀ hpos, Nat.cast_le, h.le_iff]
  · refine iff_of_false (not_le.mpr (lt_of_lt_of_le ?_ hm)) (not_upToHalfway (hcast'.trans hy))
    exact mul_lt_mul_of_pos_right (by linarith) hpos

/-- The rounded ratio is below a word if the ratio is at most halfway from the word before. -/
theorem rounded_lt_iff (h : Scaled y e m q) (hr : -1074 ≤ r) (hn : 2 ^ 52 ≤ n)
    (hn' : n + 1 < 2 ^ 53) :
    (m : ℚ) * 2 ^ q < (n + 1 : Nat) * 2 ^ r ↔ UpToHalfway n (y / 2 ^ r) := by
  have hpos : (0 : ℚ) < 2 ^ r := zpow_pos two_pos r
  have hcast : (2 : ℚ) ^ 52 ≤ n := by exact_mod_cast hn
  have hcast' : ((n + 1 : Nat) : ℚ) ≤ 2 ^ 53 := by exact_mod_cast hn'.le
  obtain ⟨hy, hm⟩ | rfl | ⟨hy, hm⟩ := h.cases_scale hr
  · refine iff_of_true (hm.trans_lt ?_) (upToHalfway_of_le (hy.trans hcast))
    exact mul_lt_mul_of_pos_right (by push_cast; linarith) hpos
  · rw [mul_lt_mul_iff_left₀ hpos, Nat.cast_lt, Nat.lt_succ_iff, h.le_iff]
  · refine iff_of_false (not_lt.mpr (le_trans ?_ hm)) (not_upToHalfway ?_)
    · exact mul_le_mul_of_nonneg_right hcast' hpos.le
    · push_cast at hcast'
      exact hcast'.trans hy

end Scaled

theorem isFinite_infinity (negative : Bool) : (infinity negative).isFinite = false := by
  cases negative <;> decide

/-- A significand without its leading bit counts the least units. -/
theorem number_pack_zero (negative : Bool) {m : Nat} (hm : m < 2 ^ 52) :
    (pack negative 0 m).isFinite = true ∧
      (pack negative 0 m).number = (if negative then -(m : ℚ) else m) * 2 ^ (-1074 : Int) := by
  have hfield : (pack negative 0 m).exponentField = 0 := exponentField_pack (by decide) hm
  have hsignificand : (pack negative 0 m).significand = m := by
    rw [significand, hfield, if_pos rfl, fraction_pack (by decide) hm]
  have hscale : (pack negative 0 m).scale = -1074 := by rw [scale, hfield, if_pos rfl]
  exact ⟨by simp [isFinite, hfield],
    by rw [number, hsignificand, hscale, negative_pack (by decide) hm]⟩

theorem number_ofScaled_of_lt (negative : Bool) {m : Nat} {q : Int} (hq : -1074 ≤ q)
    (hq' : q ≤ 971) (hm : m < 2 ^ 53) (hleast : m < 2 ^ 52 → q = -1074) :
    (ofScaled negative m q).isFinite = true ∧
      (ofScaled negative m q).number = (if negative then -(m : ℚ) else m) * 2 ^ q := by
  have hcarry : m ≠ 2 * leadingBit := by
    rw [leadingBit_eq]
    omega
  simp only [ofScaled, if_neg hcarry, if_neg (not_lt.mpr hq')]
  split
  · next hsmall =>
    rw [leadingBit_eq] at hsmall
    rw [hleast hsmall]
    exact number_pack_zero negative hsmall
  · next hlarge =>
    rw [leadingBit_eq, not_lt] at hlarge
    exact number_pack negative hlarge hm hq hq'

/-- A significand of one bit too many is written with the next scale. -/
theorem ofScaled_carry (negative : Bool) (q : Int) :
    ofScaled negative (2 ^ 53) q = ofScaled negative (2 ^ 52) (q + 1) := by
  have hcarry : 2 ^ 53 = 2 * leadingBit := by decide
  have hbit : ¬ 2 ^ 52 = 2 * leadingBit := by decide
  rw [ofScaled, ofScaled, if_pos hcarry, if_neg hbit, leadingBit_eq]

theorem isFinite_ofScaled_of_large (negative : Bool) (m : Nat) {q : Int} (hq : 971 < q) :
    (ofScaled negative m q).isFinite = false := by
  have hinfinite : ofScaled negative m q = infinity negative := by
    by_cases hcarry : m = 2 * leadingBit
    · have hq' : 971 < q + 1 := by omega
      simp only [ofScaled, if_pos hcarry, if_pos hq']
    · simp only [ofScaled, if_neg hcarry, if_pos hq]
  rw [hinfinite, isFinite_infinity]

namespace Scaled

variable {y : ℚ} {e : Int} {m : Nat} {q : Int}

/-- A rounded ratio has no more than fifty-three bits, and fewer only at the least scale. -/
theorem significand_bounds (h : Scaled y e m q) :
    m ≤ 2 ^ 53 ∧ (m < 2 ^ 52 → q = -1074) := by
  have hpos : (0 : ℚ) < 2 ^ q := zpow_pos two_pos q
  constructor
  · apply h.significand_le
    rw [div_le_iff₀ hpos]
    calc y ≤ 2 ^ (e + 1) := h.lt.le
      _ ≤ 2 ^ (53 + q) := zpow_le_zpow_right₀ one_le_two (by have := h.scale; omega)
      _ = (2 ^ 53 : Nat) * 2 ^ q := by
          rw [zpow_add₀ two_ne_zero]
          norm_num
  · intro hm
    by_contra hq
    have he : e = 52 + q := by
      have := h.scale
      omega
    refine absurd (h.le_significand (k := 2 ^ 52) ?_) (not_le.mpr hm)
    rw [le_div_iff₀ hpos]
    calc ((2 ^ 52 : Nat) : ℚ) * 2 ^ q = 2 ^ e := by
          rw [he, zpow_add₀ two_ne_zero]
          norm_num
      _ ≤ y := h.le

/-- A finite word to which a ratio is rounded denotes the rounded ratio. -/
theorem number (h : Scaled y e m q) (negative : Bool)
    (hfinite : (ofScaled negative m q).isFinite = true) :
    (ofScaled negative m q).number = (if negative then -(m : ℚ) else m) * 2 ^ q := by
  obtain ⟨hm, hleast⟩ := h.significand_bounds
  rcases hm.lt_or_eq with hlt | rfl
  · have hq : q ≤ 971 := by
      by_contra hq
      rw [isFinite_ofScaled_of_large negative m (not_le.mp hq)] at hfinite
      cases hfinite
    exact (number_ofScaled_of_lt negative h.le_scale hq hlt hleast).2
  · rw [ofScaled_carry] at hfinite ⊢
    have hq : q + 1 ≤ 971 := by
      by_contra hq
      rw [isFinite_ofScaled_of_large negative _ (not_le.mp hq)] at hfinite
      cases hfinite
    have hlower : -1074 ≤ q + 1 := h.le_scale.trans (by omega)
    rw [(number_ofScaled_of_lt negative hlower hq (by decide)
      fun h => absurd h (lt_irrefl _)).2,
      zpow_add₀ two_ne_zero]
    cases negative <;> simp <;> ring

/-- A ratio that leaves room is rounded to a finite word. -/
theorem isFinite (h : Scaled y e m q) (negative : Bool) (hy : y < 2 ^ 1023) :
    (ofScaled negative m q).isFinite = true := by
  obtain ⟨hm, hleast⟩ := h.significand_bounds
  have he : e < 1023 := (zpow_lt_zpow_iff_right₀ one_lt_two).mp
    (h.le.trans_lt (by exact_mod_cast hy))
  have hq : q < 971 := by
    rw [h.scale]
    omega
  have hlower := h.le_scale
  rcases hm.lt_or_eq with hlt | rfl
  · exact (number_ofScaled_of_lt negative hlower hq.le hlt hleast).1
  · rw [ofScaled_carry]
    exact (number_ofScaled_of_lt negative (by omega) (by omega) (by decide)
      fun h => absurd h (lt_irrefl _)).1

end Scaled

/-! ## Products -/

variable {x : Binary64} {k : Nat}

theorem number_sign (x : Binary64) : if x.negative then x.number ≤ 0 else 0 ≤ x.number := by
  have hpos : (0 : ℚ) ≤ x.significand * 2 ^ x.scale :=
    mul_nonneg (Nat.cast_nonneg _) (zpow_nonneg two_pos.le _)
  unfold Binary64.number
  split
  · rw [neg_mul]
    exact neg_nonpos.mpr hpos
  · exact hpos

/-- A product is zero, or it is what the exact product is rounded to. -/
theorem timesNat_cases (hx : x.isFinite = true) (k : Nat) :
    (|x.number| * k = 0 ∧ x.timesNat k = zero x.negative) ∨
      ∃ e m q, Scaled (|x.number| * k) e m q ∧ x.timesNat k = ofScaled x.negative m q := by
  obtain ⟨d, hd⟩ := exists_dyadic? hx
  have hden : (1 <<< d.shift : Nat) ≠ 0 := by simp [Nat.one_shiftLeft]
  have hratio : |x.number| * k = ((d.num.natAbs * k : Nat) : ℚ) / (1 <<< d.shift : Nat) := by
    have hpos : (0 : ℚ) < 2 ^ d.shift := pow_pos two_pos _
    rw [← value_of_dyadic? hd, Dyadic.value, abs_div, abs_of_pos hpos, Nat.one_shiftLeft]
    push_cast
    rw [Nat.cast_natAbs, Int.cast_abs]
    ring
  have htimes : x.timesNat k = ofRatio x.negative (d.num.natAbs * k) (1 <<< d.shift) := by
    simp only [timesNat, hd]
  rw [hratio, htimes]
  by_cases hnum : d.num.natAbs * k = 0
  · left
    simp [hnum, ofRatio]
  · exact .inr (exists_scaled x.negative hnum hden)

/-- A product that is finite is one of a finite number. -/
theorem isFinite_of_timesNat (h : (x.timesNat k).isFinite = true) : x.isFinite = true := by
  by_contra hx
  have hnone : x.dyadic? = none := by simp only [dyadic?, if_neg hx]
  have hnan : nan.isFinite = false := by decide
  simp only [timesNat, hnone] at h
  split at h
  · simp [hnan] at h
  · split at h
    · simp [hnan] at h
    · exact hx h

/-- A product that leaves room is finite. -/
theorem isFinite_timesNat (hx : x.isFinite = true) (hk : |x.number| * k < 2 ^ 1023) :
    (x.timesNat k).isFinite = true := by
  obtain ⟨-, h⟩ | ⟨e, m, q, hscaled, h⟩ := timesNat_cases hx k
  · rw [h]
    exact (number_zero _).1
  · rw [h]
    exact hscaled.isFinite x.negative hk

section

variable (hx : x.isFinite = true) (hp : (x.timesNat k).isFinite = true)
include hx hp

theorem abs_number_timesNat : (|x.number| * k = 0 ∧ (x.timesNat k).number = 0) ∨
    ∃ e m q, Scaled (|x.number| * k) e m q ∧ |(x.timesNat k).number| = m * 2 ^ q := by
  obtain ⟨hzero, h⟩ | ⟨e, m, q, hscaled, h⟩ := timesNat_cases hx k
  · exact .inl ⟨hzero, by rw [h, (number_zero _).2]⟩
  · rw [h] at hp ⊢
    refine .inr ⟨e, m, q, hscaled, ?_⟩
    have hpos : (0 : ℚ) < 2 ^ q := zpow_pos two_pos q
    rw [hscaled.number x.negative hp, abs_mul, abs_of_pos hpos]
    split <;> simp

/-- The sign of a product is that of the factor. -/
theorem number_timesNat_sign :
    if x.negative then (x.timesNat k).number ≤ 0 else 0 ≤ (x.timesNat k).number := by
  obtain ⟨-, h⟩ | ⟨e, m, q, hscaled, h⟩ := timesNat_cases hx k
  · rw [h, (number_zero _).2]
    split <;> rfl
  · rw [h] at hp ⊢
    have hpos : (0 : ℚ) ≤ m * 2 ^ q := mul_nonneg (Nat.cast_nonneg _) (zpow_nonneg two_pos.le _)
    rw [hscaled.number x.negative hp]
    split
    · rw [neg_mul]
      exact neg_nonpos.mpr hpos
    · exact hpos

variable {n : Nat} {r : Int}

/-- A product is at most a word if the exact product is at most halfway to the next word. -/
theorem abs_timesNat_le_iff (hr : -1074 ≤ r) (hn : 2 ^ 52 ≤ n) (hn' : n < 2 ^ 53) :
    |(x.timesNat k).number| ≤ n * 2 ^ r ↔ UpToHalfway n (|x.number| * k / 2 ^ r) := by
  obtain ⟨hzero, h⟩ | ⟨e, m, q, hscaled, h⟩ := abs_number_timesNat hx hp
  · rw [hzero, h, zero_div, abs_zero]
    refine iff_of_true ?_ (upToHalfway_of_le (Nat.cast_nonneg n))
    exact mul_nonneg (Nat.cast_nonneg n) (zpow_nonneg two_pos.le r)
  · rw [h]
    exact hscaled.rounded_le_iff hr hn hn'

/-- A product is below a word if the exact product is at most halfway from the word before. -/
theorem abs_timesNat_lt_iff (hr : -1074 ≤ r) (hn : 2 ^ 52 ≤ n) (hn' : n + 1 < 2 ^ 53) :
    |(x.timesNat k).number| < (n + 1 : Nat) * 2 ^ r ↔
      UpToHalfway n (|x.number| * k / 2 ^ r) := by
  obtain ⟨hzero, h⟩ | ⟨e, m, q, hscaled, h⟩ := abs_number_timesNat hx hp
  · rw [hzero, h, zero_div, abs_zero]
    refine iff_of_true ?_ (upToHalfway_of_le (Nat.cast_nonneg n))
    exact mul_pos (Nat.cast_pos.mpr n.succ_pos) (zpow_pos two_pos r)
  · rw [h]
    exact hscaled.rounded_lt_iff hr hn hn'

end

end Binary64

end DBusHost
