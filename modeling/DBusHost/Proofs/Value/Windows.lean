import DBusHost.Proofs.Unmarshal.Storing
import Mathlib.Data.Int.ModEq

/-!
# Windows and cells

An integer is checked against the window of its type and then stored in a native cell, which only
keeps the integer modulo its patterns.  The two come from different tables.  A cell gives back
exactly the integers of its own window, so nothing that is accepted is cut down as long as each
type has its window and its cell of one width and one signedness.

The bounds of a window are computed as integers.  A window that is too wide for them, since there
is no such integer or no room for it, refuses every integer.
-/

namespace DBusHost

namespace IntWindow

/-- An integer of the window stands for another one up to a multiple of the patterns. -/
structure IsReduced (w : IntWindow) (i r : Int) : Prop where
  contains : w.contains r = true
  modEq : r ≡ i [ZMOD patterns w.bits]

variable {w : IntWindow} {i r s : Int}

theorem store_modEq (w : IntWindow) (i : Int) : w.store i ≡ i [ZMOD patterns w.bits] := by
  unfold store
  split
  · exact Int.bmod_emod
  · exact Int.mod_modEq i _

/-- What a cell holds is in its window. -/
theorem contains_store (hw : 0 < w.bits) (i : Int) : w.contains (w.store i) = true := by
  obtain ⟨signed, bits⟩ := w
  obtain ⟨n, rfl⟩ : ∃ n, bits = n + 1 := ⟨bits - 1, by simp at hw; omega⟩
  have hpatterns := patterns_succ n
  have hpos := patterns_pos n
  simp only [contains, least, greatest, store, Bool.and_eq_true, decide_eq_true_eq,
    Nat.add_sub_cancel]
  cases signed with
  | false =>
      have hnonneg := Int.emod_nonneg i (b := (patterns (n + 1) : Int)) (by omega)
      have hlt := Int.emod_lt_of_pos i (b := (patterns (n + 1) : Int)) (by omega)
      simp only [Bool.false_eq_true, if_false]
      omega
  | true =>
      have hle := Int.le_bmod (x := i) (m := patterns (n + 1)) (by omega)
      have hlt := Int.bmod_lt (x := i) (m := patterns (n + 1)) (by omega)
      simp only [if_true]
      omega

/-- A cell gives back exactly the integers of its window. -/
theorem store_eq_self_iff (hw : 0 < w.bits) : w.store i = i ↔ w.contains i = true :=
  ⟨fun h => h ▸ contains_store hw i, store_of_contains hw⟩

theorem IsReduced.unique (hw : 0 < w.bits) (hr : w.IsReduced i r) (hs : w.IsReduced i s) :
    r = s := by
  have hmod : r ≡ s [ZMOD patterns w.bits] := hr.modEq.trans hs.modEq.symm
  rw [← store_of_contains hw hr.contains, ← store_of_contains hw hs.contains]
  unfold store
  split
  · rw [← Int.emod_bmod, hmod, Int.emod_bmod]
  · exact hmod

/-- Storing an integer in a cell reduces it into the window of the cell. -/
theorem isReduced_iff (hw : 0 < w.bits) : w.IsReduced i r ↔ r = w.store i := by
  have hstore : w.IsReduced i (w.store i) := ⟨contains_store hw i, store_modEq w i⟩
  exact ⟨fun h => h.unique hw hstore, fun h => h ▸ hstore⟩

end IntWindow

namespace Value

variable {w : IntWindow} {x : Value} {i : Int}

theorem checkWindow_of_le {memory : Nat} (hw : 0 < w.bits) (hx : x.integer? = some i)
    (hlimit : w.exponent ≤ integerLimit) (hroom : w.exponent ≤ memory) :
    checkWindow w.signed w.bits x memory =
      if w.store i = i then .ok i else .error (.outOfWindow i w.signed w.bits) := by
  simp only [checkWindow_eq hw hx, checkWidth_of_le hlimit hroom, IntWindow.store_eq_self_iff hw]
  rfl

theorem checkWindow_of_limit_lt {memory : Nat} (hw : 0 < w.bits) (hx : x.integer? = some i)
    (hlimit : integerLimit < w.exponent) :
    checkWindow w.signed w.bits x memory = .error .tooLarge := by
  rw [checkWindow_eq hw hx, checkWidth, if_neg (by omega), if_pos (by omega)]
  rfl

theorem checkWindow_of_memory_lt {memory : Nat} (hw : 0 < w.bits) (hx : x.integer? = some i)
    (hlimit : w.exponent ≤ integerLimit) (hroom : memory < w.exponent) :
    checkWindow w.signed w.bits x memory = .error .outOfMemory := by
  rw [checkWindow_eq hw hx, checkWidth, if_neg (by omega), if_neg (by omega), if_pos (by omega)]
  rfl

end Value

namespace BasicType

open Value

variable {v : Validator} {b : BasicType} {w : IntWindow} {x : Value} {i : Int}

theorem checkTyped_char (hw : b.window? = some w) : checkTyped b.char x = checkInteger w x := by
  simp only [checkTyped, ofChar?_char, Option.bind_some, hw]

/-- An integer that is accepted comes back from its cell. -/
theorem reads_cell {c : Scalar} (hw : b.window? = some w) (hx : x.integer? = some i)
    (h : b.cell v x = .ok c) :
    c = .integer i ∧ ∃ y, b.valueIn v c = .ok y ∧ y.integer? = some i := by
  obtain ⟨j, hj, rfl⟩ := cell_of_window? hw h
  obtain rfl := Option.some.inj (hx.symm.trans hj)
  exact ⟨rfl, integer?_valueIn hw i⟩

end BasicType

namespace Value

/-- Reduction is what a cell does.  An integer passes the check against a window of any width if
it equals its own reduction into the window and is refused with that window otherwise, as long as
the bounds are among the integers and fit into the memory; if they are not or do not, every integer
is refused for that.  The check of an integer type goes by the cell of the type, and the cell then
gives back what was accepted. -/
theorem checks_fit_cells :
    (∀ w : IntWindow, 1 ≤ w.bits → ∀ i r, w.IsReduced i r ↔ r = w.store i) ∧
    (∀ w : IntWindow, 1 ≤ w.bits → ∀ memory x i, x.integer? = some i →
      (w.exponent ≤ integerLimit → w.exponent ≤ memory →
        checkWindow w.signed w.bits x memory =
          if w.store i = i then .ok i else .error (.outOfWindow i w.signed w.bits)) ∧
      (integerLimit < w.exponent → checkWindow w.signed w.bits x memory = .error .tooLarge) ∧
      (w.exponent ≤ integerLimit → memory < w.exponent →
        checkWindow w.signed w.bits x memory = .error .outOfMemory)) ∧
    ∀ (b : BasicType) w, b.window? = some w → ∃ cell, b.storage = .integer cell ∧
      ∀ x i, x.integer? = some i →
        (checkTyped b.char x =
          if cell.store i = i then .ok i else .error (.outOfWindow i w.signed w.bits)) ∧
        ∀ v c, b.cell v x = .ok c →
          c = .integer i ∧ ∃ y, b.valueIn v c = .ok y ∧ y.integer? = some i := by
  refine ⟨fun w hw i r => IntWindow.isReduced_iff hw, fun w hw memory x i hx => ?_,
    fun b w hw => ?_⟩
  · exact ⟨checkWindow_of_le hw hx, checkWindow_of_limit_lt hw hx, checkWindow_of_memory_lt hw hx⟩
  · refine ⟨w, BasicType.storage_of_window? hw, fun x i hx => ⟨?_, fun v c => ?_⟩⟩
    · have hbits := BasicType.bits_of_window? hw
      simp only [BasicType.checkTyped_char hw, checkInteger_eq hbits hx,
        IntWindow.store_eq_self_iff hbits.1]
    · exact BasicType.reads_cell hw hx

/-- The least integer of a window of three bits is accepted and the one below is not, if there is
room for the bounds, which are two to the power of two away; a byte takes neither, and it keeps
what it takes. -/
theorem checks_fit_cells_narrow :
    checkWindow true 3 (.int (-4)) 2 = .ok (-4) ∧
      checkWindow true 3 (.int (-5)) 2 = .error (.outOfWindow (-5) true 3) ∧
      checkWindow true 3 (.int (-4)) 1 = .error .outOfMemory ∧
      checkTyped 'y' (.int (-4)) = .error (.outOfWindow (-4) false 8) ∧
      checkTyped 'y' (.bool true) = .ok 1 ∧
      BasicType.byte.cell .ofGrammar (.bool true) = .ok (.integer 1) := by
  obtain ⟨-, hwindow, htype⟩ := checks_fit_cells
  have hthree := hwindow ⟨true, 3⟩ (by decide)
  obtain ⟨cell, hcell, hbyte⟩ := htype .byte ⟨false, 8⟩ rfl
  obtain rfl := Storage.integer.inj hcell
  have hread := hbyte (.bool true) 1 rfl
  refine ⟨(hthree 2 (.int (-4)) (-4) rfl).1 (by decide) (by decide),
    (hthree 2 (.int (-5)) (-5) rfl).1 (by decide) (by decide),
    (hthree 1 (.int (-4)) (-4) rfl).2.2 (by decide) (by decide),
    (hbyte (.int (-4)) (-4) rfl).1, hread.1, ?_⟩
  cases h : BasicType.byte.cell .ofGrammar (.bool true) with
  | error f => cases h
  | ok c => rw [(hread.2 _ c h).1]

/-- A window can be too wide for its bounds, and then also small integers are refused that equal
their own reduction. -/
theorem checkWindow_too_wide :
    (IntWindow.mk false (IntWindow.patterns 70)).store 5 = 5 ∧
      checkWindow false (IntWindow.patterns 70) (.int 5) = .error .tooLarge := by
  have hcontains : ∀ bits, 3 ≤ bits → (IntWindow.mk false bits).contains 5 = true := by
    intro bits hbits
    have hle := IntWindow.patterns_le hbits
    have hthree : IntWindow.patterns 3 = 8 := by decide
    simp only [IntWindow.contains, IntWindow.least, IntWindow.greatest, Bool.and_eq_true,
      decide_eq_true_eq, Bool.false_eq_true, if_false]
    omega
  have hwide : 3 ≤ IntWindow.patterns 70 := by decide
  exact ⟨IntWindow.store_of_contains (w := ⟨false, IntWindow.patterns 70⟩) (by decide)
    (hcontains _ hwide), by decide⟩

end Value

end DBusHost
