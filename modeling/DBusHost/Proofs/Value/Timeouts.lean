import DBusHost.Proofs.Value.Nearest
import DBusHost.Timeout
import Mathlib.Tactic.NormNum

/-!
# Which timeouts arrive

Milliseconds are handed on in a native integer of thirty-two bits, two of whose values stand for no
limit and for the library's own choice.  A number of seconds is neither compared with the range of
that integer nor with the two values, once it has been multiplied.  This module says for which
numbers of seconds the milliseconds lie in the range, and for which they are one of the two values.

For a double the borders are not at whole or half milliseconds, since the product is rounded twice:
to a double first and then to an integer.
-/

namespace DBusHost

/-- Rounding to an integer keeps the sign. -/
theorem Dyadic.round_sign (a : Dyadic) :
    (a.value ≤ 0 → a.round ≤ 0) ∧ (0 ≤ a.value → 0 ≤ a.round) := by
  have hpos : (0 : ℚ) < 2 ^ a.shift := pow_pos two_pos _
  have hzero : a.num = 0 → a.round = 0 := fun h => by simp [round, h, roundDiv]
  constructor
  · intro h
    have hnum : a.num ≤ 0 := by
      rw [value, div_le_iff₀ hpos, zero_mul] at h
      exact_mod_cast h
    rcases hnum.lt_or_eq with hlt | heq
    · simp only [round, if_pos hlt]
      omega
    · rw [hzero heq]
  · intro h
    have hnum : 0 ≤ a.num := by
      rw [value, le_div_iff₀ hpos, zero_mul] at h
      exact_mod_cast h
    simp only [round, if_neg (not_lt.mpr hnum)]
    omega

namespace Binary64

/-- The exact number of milliseconds in a number of seconds. -/
def milliseconds (x : Binary64) : ℚ := x.number * 1000

/-- An integer is the product of a number of seconds, rounded to a double and then again. -/
structure IsRounded (x : Binary64) (ms : Int) : Prop where
  isFinite : x.isFinite = true
  product : (x.timesNat millisecondsPerSecond).isFinite = true
  natAbs_le_iff : ∀ k, ms.natAbs ≤ k ↔ UpToHalfway k |(x.timesNat millisecondsPerSecond).number|
  sign : if x.negative then ms ≤ 0 else 0 ≤ ms

variable {x : Binary64} {ms : Int}

theorem isRounded_of_eq_ok (hx : x.isFinite = true)
    (h : timeoutMilliseconds (.double x) = .ok ms) : x.IsRounded ms := by
  simp only [timeoutMilliseconds, Value.integer?] at h
  split at h
  case h_2 => cases h
  case h_1 d hd =>
    obtain rfl := Except.ok.inj h
    have hproduct := isFinite_of_dyadic? hd
    have hvalue := value_of_dyadic? hd
    refine ⟨hx, hproduct, fun k => by rw [Dyadic.natAbs_round_le_iff, hvalue], ?_⟩
    have hsign := number_timesNat_sign hx hproduct
    rw [← hvalue] at hsign
    split at hsign
    · next hneg =>
      rw [if_pos hneg]
      exact d.round_sign.1 hsign
    · next hneg =>
      rw [if_neg hneg]
      exact d.round_sign.2 hsign

/-- A finite number of seconds that leaves room for the product is accepted. -/
theorem exists_timeoutMilliseconds (hx : x.isFinite = true) (h : |x.milliseconds| < 2 ^ 1023) :
    ∃ ms, timeoutMilliseconds (.double x) = .ok ms := by
  have hk : |x.number| * millisecondsPerSecond < 2 ^ 1023 := by
    simpa [milliseconds, abs_mul, millisecondsPerSecond] using h
  obtain ⟨d, hd⟩ := exists_dyadic? (isFinite_timesNat hx hk)
  exact ⟨d.round, by simp only [timeoutMilliseconds, Value.integer?, hd]⟩

namespace IsRounded

variable {k n : Nat} {r : Int}

/-- Where an even integer ends and the next one begins there is a word, and it belongs to the even
one. -/
theorem natAbs_le_iff_of_even (h : x.IsRounded ms) (hk : k % 2 = 0) (hr : -1074 ≤ r)
    (hn : 2 ^ 52 ≤ n) (hn' : n < 2 ^ 53) (heven : n % 2 = 0) (hword : (k : ℚ) + 1 / 2 = n * 2 ^ r) :
    ms.natAbs ≤ k ↔ |x.milliseconds| ≤ k + 1 / 2 + 2 ^ r / 2 := by
  have hpos : (0 : ℚ) < 2 ^ r := zpow_pos two_pos r
  have hexact : |x.number| * millisecondsPerSecond = |x.milliseconds| := by
    simp [milliseconds, abs_mul, millisecondsPerSecond]
  have hproduct := abs_timesNat_le_iff h.isFinite h.product hr hn hn'
  rw [h.natAbs_le_iff, UpToHalfway, if_pos hk, hword, hproduct, UpToHalfway, if_pos heven, hexact,
    div_le_iff₀ hpos]
  constructor <;> intro hle <;> linarith

/-- Where an odd integer ends and the next one begins there is a word, and it belongs to the next
one. -/
theorem natAbs_le_iff_of_odd (h : x.IsRounded ms) (hk : k % 2 = 1) (hr : -1074 ≤ r)
    (hn : 2 ^ 52 ≤ n) (hn' : n + 1 < 2 ^ 53) (hodd : n % 2 = 1)
    (hword : (k : ℚ) + 1 / 2 = (n + 1 : Nat) * 2 ^ r) :
    ms.natAbs ≤ k ↔ |x.milliseconds| < k + 1 / 2 - 2 ^ r / 2 := by
  have hpos : (0 : ℚ) < 2 ^ r := zpow_pos two_pos r
  have hexact : |x.number| * millisecondsPerSecond = |x.milliseconds| := by
    simp [milliseconds, abs_mul, millisecondsPerSecond]
  have hproduct := abs_timesNat_lt_iff h.isFinite h.product hr hn hn'
  rw [h.natAbs_le_iff, UpToHalfway, if_neg (by omega), hword, hproduct, UpToHalfway,
    if_neg (by omega), hexact, div_lt_iff₀ hpos]
  push_cast
  constructor <;> intro hlt <;> linarith

theorem natAbs_le_zero_iff (h : x.IsRounded ms) :
    ms.natAbs ≤ 0 ↔ |x.milliseconds| ≤ 1 / 2 + 1 / 2 ^ 54 := by
  have hiff := h.natAbs_le_iff_of_even (k := 0) (n := 2 ^ 52) (r := -53) (by decide) (by decide)
    (by decide) (by decide) (by decide) (by norm_num)
  norm_num at hiff ⊢
  exact hiff

theorem natAbs_le_one_iff (h : x.IsRounded ms) :
    ms.natAbs ≤ 1 ↔ |x.milliseconds| < 3 / 2 - 1 / 2 ^ 53 := by
  have hiff := h.natAbs_le_iff_of_odd (k := 1) (n := 6755399441055743) (r := -52) (by decide)
    (by decide) (by decide) (by decide) (by decide) (by norm_num)
  norm_num at hiff ⊢
  exact hiff

theorem natAbs_lt_greatest_iff (h : x.IsRounded ms) :
    ms.natAbs ≤ 2147483646 ↔ |x.milliseconds| ≤ 2147483646 + 1 / 2 + 1 / 2 ^ 23 := by
  have hiff := h.natAbs_le_iff_of_even (k := 2147483646) (n := 9007199248449536) (r := -22)
    (by decide) (by decide) (by decide) (by decide) (by decide) (by norm_num)
  norm_num at hiff ⊢
  exact hiff

theorem natAbs_le_greatest_iff (h : x.IsRounded ms) :
    ms.natAbs ≤ 2147483647 ↔ |x.milliseconds| < 2147483647 + 1 / 2 - 1 / 2 ^ 23 := by
  have hiff := h.natAbs_le_iff_of_odd (k := 2147483647) (n := 9007199252643839) (r := -22)
    (by decide) (by decide) (by decide) (by decide) (by decide) (by norm_num)
  norm_num at hiff ⊢
  exact hiff

theorem natAbs_le_least_iff (h : x.IsRounded ms) :
    ms.natAbs ≤ 2147483648 ↔ |x.milliseconds| ≤ 2147483648 + 1 / 2 + 1 / 2 ^ 22 := by
  have hiff := h.natAbs_le_iff_of_even (k := 2147483648) (n := 4503599628419072) (r := -21)
    (by decide) (by decide) (by decide) (by decide) (by decide) (by norm_num)
  norm_num at hiff ⊢
  exact hiff

theorem milliseconds_sign (x : Binary64) :
    if x.negative then x.milliseconds ≤ 0 else 0 ≤ x.milliseconds := by
  have hsign := x.number_sign
  unfold milliseconds
  split
  · next h =>
    rw [if_pos h] at hsign
    linarith
  · next h =>
    rw [if_neg h] at hsign
    linarith

theorem contains_iff (h : x.IsRounded ms) : timeoutWindow.contains ms = true ↔
    -(2147483648 + 1 / 2 + 1 / 2 ^ 22) ≤ x.milliseconds ∧
      x.milliseconds < 2147483647 + 1 / 2 - 1 / 2 ^ 23 := by
  have hms := h.sign
  have hexact := milliseconds_sign x
  rw [timeoutWindow_contains]
  split at hms
  · next hneg =>
    rw [if_pos hneg] at hexact
    have hleast := h.natAbs_le_least_iff
    rw [abs_of_nonpos hexact] at hleast
    constructor
    · rintro ⟨hlower, -⟩
      have := hleast.mp (by omega)
      constructor <;> linarith
    · rintro ⟨hlower, -⟩
      have := hleast.mpr (by linarith)
      omega
  · next hpos =>
    rw [if_neg hpos] at hexact
    have hgreatest := h.natAbs_le_greatest_iff
    rw [abs_of_nonneg hexact] at hgreatest
    constructor
    · rintro ⟨-, hupper⟩
      have := hgreatest.mp (by omega)
      constructor <;> linarith
    · rintro ⟨-, hupper⟩
      have := hgreatest.mpr hupper
      omega

theorem eq_infinite_iff (h : x.IsRounded ms) : ms = timeoutInfinite ↔
    2147483646 + 1 / 2 + 1 / 2 ^ 23 < x.milliseconds ∧
      x.milliseconds < 2147483647 + 1 / 2 - 1 / 2 ^ 23 := by
  have hinfinite : timeoutInfinite = 2147483647 := rfl
  have hms := h.sign
  have hexact := milliseconds_sign x
  rw [hinfinite]
  split at hms
  · next hneg =>
    rw [if_pos hneg] at hexact
    refine iff_of_false (by omega) ?_
    rintro ⟨hlower, -⟩
    linarith
  · next hpos =>
    rw [if_neg hpos] at hexact
    have hbelow := h.natAbs_lt_greatest_iff.not
    have hgreatest := h.natAbs_le_greatest_iff
    rw [abs_of_nonneg hexact] at hbelow hgreatest
    rw [← not_le, ← hbelow, ← hgreatest]
    omega

theorem eq_default_iff (h : x.IsRounded ms) : ms = timeoutDefault ↔
    -(3 / 2 - 1 / 2 ^ 53) < x.milliseconds ∧ x.milliseconds < -(1 / 2 + 1 / 2 ^ 54) := by
  have hdefault : timeoutDefault = -1 := rfl
  have hms := h.sign
  have hexact := milliseconds_sign x
  rw [hdefault]
  split at hms
  · next hneg =>
    rw [if_pos hneg] at hexact
    have hzero := h.natAbs_le_zero_iff.not
    have hone := h.natAbs_le_one_iff
    rw [abs_of_nonpos hexact] at hzero hone
    rw [neg_lt, ← hone, lt_neg, ← not_le, ← hzero]
    omega
  · next hpos =>
    rw [if_neg hpos] at hexact
    refine iff_of_false (by omega) ?_
    rintro ⟨-, hupper⟩
    linarith

end IsRounded

end Binary64

/-- What is accepted is a number of whole seconds or a finite double. -/
theorem integer_or_double_of_eq_ok {x : Value} {ms : Int} (h : timeoutMilliseconds x = .ok ms) :
    (∃ i, x.integer? = some i) ∨ ∃ y : Binary64, x = .double y ∧ y.isFinite = true := by
  cases hx : x.integer? with
  | some i => exact .inl ⟨i, rfl⟩
  | none =>
      simp only [timeoutMilliseconds, hx] at h
      split at h
      · next y =>
        split at h
        · next d hd =>
          have hproduct := Binary64.isFinite_of_dyadic? hd
          exact .inr ⟨y, rfl, Binary64.isFinite_of_timesNat hproduct⟩
        · cases h
      · cases h

/-- Whole seconds become a thousand times as many milliseconds, apart from the two values, which are
handed on as they are.  They lie in the range of the native integer up to 2147483 seconds, and no
other whole seconds become one of the two values.

A finite number of seconds that is a double is accepted if there is room for the product.  Its exact
number of milliseconds decides whether the result lies in the range, and when it is one of the two
values: about one negative millisecond stands for the library's own choice, and the greatest number
of milliseconds in the range for no limit.

The other kinds of values are not accepted, plain objects among them. -/
theorem timeoutMilliseconds_arrive (x : Value) :
    (∀ i, x.integer? = some i → ∃ ms, timeoutMilliseconds x = .ok ms ∧
      ms = (if i = timeoutInfinite ∨ i = timeoutDefault then i else i * 1000) ∧
      (timeoutWindow.contains ms = true ↔
        i = timeoutInfinite ∨ -2147483 ≤ i ∧ i ≤ 2147483) ∧
      ∀ r, r = timeoutInfinite ∨ r = timeoutDefault → (ms = r ↔ i = r)) ∧
    (∀ y : Binary64, x = .double y → y.isFinite = true →
      (|y.milliseconds| < 2 ^ 1023 → ∃ ms, timeoutMilliseconds x = .ok ms) ∧
      ∀ ms, timeoutMilliseconds x = .ok ms →
        (timeoutWindow.contains ms = true ↔
          -(2147483648 + 1 / 2 + 1 / 2 ^ 22) ≤ y.milliseconds ∧
            y.milliseconds < 2147483647 + 1 / 2 - 1 / 2 ^ 23) ∧
        (ms = timeoutInfinite ↔
          2147483646 + 1 / 2 + 1 / 2 ^ 23 < y.milliseconds ∧
            y.milliseconds < 2147483647 + 1 / 2 - 1 / 2 ^ 23) ∧
        (ms = timeoutDefault ↔
          -(3 / 2 - 1 / 2 ^ 53) < y.milliseconds ∧ y.milliseconds < -(1 / 2 + 1 / 2 ^ 54))) ∧
    ∀ ms, timeoutMilliseconds x = .ok ms →
      (∃ i, x.integer? = some i) ∨ ∃ y : Binary64, x = .double y ∧ y.isFinite = true := by
  refine ⟨fun i hx => ⟨_, timeoutMilliseconds_of_integer? hx, rfl, integer_contains_iff i,
    fun r hr => integer_eq_iff hr⟩, ?_, fun ms => integer_or_double_of_eq_ok⟩
  rintro y rfl hy
  refine ⟨Binary64.exists_timeoutMilliseconds hy, fun ms h => ?_⟩
  have hrounded := Binary64.isRounded_of_eq_ok hy h
  exact ⟨hrounded.contains_iff, hrounded.eq_infinite_iff, hrounded.eq_default_iff⟩

/-- Whole seconds beyond the range, one negative millisecond, and the greatest number of
milliseconds in the range. -/
theorem timeoutMilliseconds_arrive_borders :
    (∃ ms, timeoutMilliseconds (.int 2147484) = .ok ms ∧ ms = 2147484000 ∧
      ¬ timeoutWindow.contains ms = true) ∧
      timeoutMilliseconds (.double ⟨0xbf50624dd2f1a9fc⟩) = .ok timeoutDefault ∧
      timeoutMilliseconds (.double ⟨0x4140624dd2d0e560⟩) = .ok timeoutInfinite := by
  have hlarge : (2 : ℚ) ^ 32 ≤ 2 ^ 1023 := pow_le_pow_right₀ one_le_two (by decide)
  refine ⟨?_, ?_, ?_⟩
  · obtain ⟨ms, h, hms, hcontains, -⟩ := (timeoutMilliseconds_arrive (.int 2147484)).1 2147484 rfl
    exact ⟨ms, h, hms, hcontains.not.mpr (by decide)⟩
  · have hexact : Binary64.milliseconds ⟨0xbf50624dd2f1a9fc⟩ =
        -(4611686018427388 * 2 ^ (-62 : Int)) * 1000 := by
      have hsignificand : Binary64.significand ⟨0xbf50624dd2f1a9fc⟩ = 4611686018427388 := by decide
      have hscale : Binary64.scale ⟨0xbf50624dd2f1a9fc⟩ = -62 := by decide
      have hnegative : Binary64.negative ⟨0xbf50624dd2f1a9fc⟩ = true := by decide
      simp [Binary64.milliseconds, Binary64.number, hsignificand, hscale, hnegative]
    obtain ⟨hroom, hvalue⟩ :=
      (timeoutMilliseconds_arrive (.double ⟨0xbf50624dd2f1a9fc⟩)).2.1 _ rfl (by decide)
    obtain ⟨ms, h⟩ := hroom (lt_of_lt_of_le (by rw [hexact, abs_lt]; norm_num) hlarge)
    rw [h, (hvalue ms h).2.2.mpr (by rw [hexact]; norm_num)]
  · have hexact : Binary64.milliseconds ⟨0x4140624dd2d0e560⟩ =
        4611686016279904 * 2 ^ (-31 : Int) * 1000 := by
      have hsignificand : Binary64.significand ⟨0x4140624dd2d0e560⟩ = 4611686016279904 := by decide
      have hscale : Binary64.scale ⟨0x4140624dd2d0e560⟩ = -31 := by decide
      have hnegative : Binary64.negative ⟨0x4140624dd2d0e560⟩ = false := by decide
      simp [Binary64.milliseconds, Binary64.number, hsignificand, hscale, hnegative]
    obtain ⟨hroom, hvalue⟩ :=
      (timeoutMilliseconds_arrive (.double ⟨0x4140624dd2d0e560⟩)).2.1 _ rfl (by decide)
    obtain ⟨ms, h⟩ := hroom (lt_of_lt_of_le (by rw [hexact, abs_lt]; norm_num) hlarge)
    rw [h, (hvalue ms h).2.1.mpr (by rw [hexact]; norm_num)]

end DBusHost
