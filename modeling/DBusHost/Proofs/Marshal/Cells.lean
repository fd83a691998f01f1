import DBusHost.Message.Sheet

/-!
# The cells of basic types

A basic type takes the values that have a cell of the type.  `BasicType.Admits` names
them: integers in the range of the type, anything as a truth value, what can be read as a
double, any text, and what makes a signature.
-/

namespace DBusHost

namespace IntWindow

/-- The power of two that the bounds of the window are computed from. -/
def exponent (w : IntWindow) : Nat := if w.signed then w.bits - 1 else w.bits

theorem exponent_le (w : IntWindow) : w.exponent ≤ w.bits := by
  unfold exponent
  split <;> omega

theorem cast_exponent {w : IntWindow} (hw : 0 < w.bits) :
    (w.exponent : Int) = if w.signed then (w.bits : Int) - 1 else w.bits := by
  unfold exponent
  split <;> omega

end IntWindow

namespace Value

/-- The value is an integer between two bounds. -/
def IsBetween (least greatest : Int) (x : Value) : Prop :=
  ∃ i, x.integer? = some i ∧ least ≤ i ∧ i ≤ greatest

/-- The value is a signature, or text or ASCII bytes that the validator accepts. -/
def MakesSignature (v : Validator) : Value → Prop
  | signature _ => True
  | text s | path s => Text.hasNul s = false ∧ v.sequence s = .valid
  | bytes bs | buffer bs =>
      let s := String.ofList (bs.map Text.charOfByte)
      (∀ b ∈ bs, b < 128) ∧ Text.hasNul s = false ∧ v.sequence s = .valid
  | _ => False

theorem makesSignature_iff {v : Validator} {x : Value} :
    x.MakesSignature v ↔ ∃ g, Signature.ofValue v x = .ok g := by
  cases x with
  | signature g => simp [MakesSignature, Signature.ofValue]
  | text s | path s =>
      simp only [MakesSignature, Signature.ofValue, Signature.ofText, Signature.check_eq_ok_iff]
      simp
  | bytes bs | buffer bs =>
      simp only [MakesSignature, Signature.ofValue, Signature.ofValue.ofBytes, List.all_eq_true,
        decide_eq_true_eq]
      by_cases hascii : ∀ b ∈ bs, b < 128
      · simp only [if_pos hascii, Signature.ofText, Signature.check_eq_ok_iff]
        constructor
        · rintro ⟨-, hnul, hv⟩
          exact ⟨_, hnul, hv, rfl⟩
        · rintro ⟨-, hnul, hv, -⟩
          exact ⟨hascii, hnul, hv⟩
      · simp only [if_neg hascii]
        exact ⟨fun h => absurd h.1 hascii, by simp⟩
  | _ => simp [MakesSignature, Signature.ofValue]

theorem checkWidth_of_le {memory n : Nat} (hn : n ≤ integerLimit) (hroom : n ≤ memory) :
    checkWidth memory n = .ok () := by
  rw [checkWidth, if_neg (by omega), if_neg (by omega), if_neg (by omega)]

section

variable {w : IntWindow} {x : Value} {i : Int}

/-- The bounds of the window are computed before the integer is looked at. -/
theorem checkWindow_eq (hw : 0 < w.bits) (hx : x.integer? = some i) (memory : Nat) :
    checkWindow w.signed w.bits x memory = (do
      checkWidth memory w.exponent
      if w.contains i then pure i else throw (.outOfWindow i w.signed w.bits)) := by
  have hfits : (IntWindow.mk w.signed (w.bits : Int).toNat).fits i = w.contains i :=
    w.fits_eq_contains i
  simp only [checkWindow, hx, hfits, IntWindow.cast_exponent hw]

theorem checkInteger_eq (hw : 0 < w.bits ∧ w.bits ≤ 64) (hx : x.integer? = some i) :
    checkInteger w x =
      if w.contains i then .ok i else .error (.outOfWindow i w.signed w.bits) := by
  have hlimit : 64 ≤ integerLimit := by decide
  have hexponent : w.exponent ≤ integerLimit :=
    Nat.le_trans w.exponent_le (Nat.le_trans hw.2 hlimit)
  rw [checkInteger, checkWindow_eq hw.1 hx, checkWidth_of_le hexponent hexponent]
  rfl

/-- An integer passes the check against a window of at most 64 bits if it lies in it. -/
theorem checkInteger_eq_ok_iff (hw : 0 < w.bits ∧ w.bits ≤ 64) :
    checkInteger w x = .ok i ↔ x.integer? = some i ∧ w.contains i = true := by
  cases hx : x.integer? with
  | none => simp [checkInteger, checkWindow, hx]
  | some j =>
      rw [checkInteger_eq hw hx, Option.some.injEq]
      constructor
      · intro hok
        split at hok
        · next hj =>
          obtain rfl := Except.ok.inj hok
          exact ⟨rfl, hj⟩
        · cases hok
      · rintro ⟨rfl, hj⟩
        exact if_pos hj

end

end Value

namespace BasicType

/-- The values that a basic type takes. -/
def Admits (v : Validator) (x : Value) : BasicType → Prop
  | byte => x.IsBetween 0 255
  | int16 => x.IsBetween (-32768) 32767
  | uint16 => x.IsBetween 0 65535
  | int32 | unixFd => x.IsBetween (-2147483648) 2147483647
  | uint32 => x.IsBetween 0 4294967295
  | int64 => x.IsBetween (-9223372036854775808) 9223372036854775807
  | uint64 => x.IsBetween 0 18446744073709551615
  | boolean => True
  | double => ∃ d, x.toDouble = .ok d
  | string | objectPath => ∃ s, x.text? = some s
  | signature => x.MakesSignature v

theorem bits_of_window? {b : BasicType} {w : IntWindow} (h : b.window? = some w) :
    0 < w.bits ∧ w.bits ≤ 64 := by
  cases b <;> simp [window?] at h <;> subst h <;> decide

/-- The range of an integer type is its window. -/
theorem admits_iff_contains {v : Validator} {b : BasicType} {x : Value} {w : IntWindow}
    (h : b.window? = some w) :
    b.Admits v x ↔ ∃ i, x.integer? = some i ∧ w.contains i = true := by
  cases b <;> simp [window?] at h <;> subst h <;>
    simp [Admits, Value.IsBetween, IntWindow.contains, IntWindow.least, IntWindow.greatest,
      IntWindow.patterns]

/-- A basic type has a cell for exactly the values that it takes. -/
theorem exists_cell_iff {v : Validator} {b : BasicType} {x : Value} :
    (∃ c, b.cell v x = .ok c) ↔ b.Admits v x := by
  cases hw : b.window? with
  | some w =>
      rw [admits_iff_contains hw]
      simp only [← Value.checkInteger_eq_ok_iff (bits_of_window? hw), cell, hw, bind, Except.bind]
      cases Value.checkInteger w x with
      | error f => simp
      | ok i => exact ⟨fun _ => ⟨i, rfl⟩, fun _ => ⟨_, rfl⟩⟩
  | none =>
      cases b with
      | boolean => simp [cell, window?, Admits]
      | double =>
          cases hx : x.toDouble <;> simp [cell, window?, Admits, hx, Functor.map, Except.map]
      | signature =>
          simp only [Admits, Value.makesSignature_iff, cell, window?, bind, Except.bind]
          cases Signature.ofValue v x with
          | error f => simp
          | ok g => exact ⟨fun _ => ⟨g, rfl⟩, fun _ => ⟨_, rfl⟩⟩
      | string | objectPath => cases hx : x.text? <;> simp [cell, window?, Admits, hx]
      | _ => simp [window?] at hw

end BasicType

end DBusHost
