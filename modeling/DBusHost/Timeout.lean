import DBusHost.Fault
import DBusHost.Value.Basic

/-!
# Timeouts

Timeouts are given in seconds and handed on in milliseconds.  Two integers mean no
limit and the library's own choice, and are handed on as they are.  A number of
seconds that is a double is multiplied as a double, and the product is rounded to the
nearest integer, a tie going to the even one.
-/

namespace DBusHost

def millisecondsPerSecond : Nat := 1000

def timeoutMilliseconds (timeout : Value) : Except Fault Int :=
  match timeout.integer? with
  | some i =>
    if i = timeoutInfinite ∨ i = timeoutDefault then .ok i
    else .ok (i * millisecondsPerSecond)
  | none =>
    match timeout with
    | .double x =>
      let product := x.timesNat millisecondsPerSecond
      match product.dyadic? with
      | some d => .ok d.round
      | none => .error (if product.isNaN then .badValue else .tooLarge)
    | _ => .error .wrongKind

/-- The native integers that milliseconds are handed on in. -/
def timeoutWindow : IntWindow := ⟨true, 32⟩

theorem timeoutWindow_contains {i : Int} :
    timeoutWindow.contains i = true ↔ -2147483648 ≤ i ∧ i ≤ 2147483647 := by
  simp [timeoutWindow, IntWindow.contains, IntWindow.least, IntWindow.greatest, IntWindow.patterns]

/-- The milliseconds of whole seconds, apart from the two values that stand for themselves. -/
theorem timeoutMilliseconds_of_integer? {x : Value} {i : Int} (hx : x.integer? = some i) :
    timeoutMilliseconds x =
      .ok (if i = timeoutInfinite ∨ i = timeoutDefault then i else i * 1000) := by
  simp only [timeoutMilliseconds, hx, millisecondsPerSecond]
  split <;> rfl

theorem integer_contains_iff (i : Int) :
    timeoutWindow.contains
        (if i = timeoutInfinite ∨ i = timeoutDefault then i else i * 1000) = true ↔
      i = timeoutInfinite ∨ -2147483 ≤ i ∧ i ≤ 2147483 := by
  have hinfinite : timeoutInfinite = 2147483647 := rfl
  have hdefault : timeoutDefault = -1 := rfl
  by_cases h : i = timeoutInfinite ∨ i = timeoutDefault
  · rw [if_pos h, timeoutWindow_contains]
    omega
  · rw [if_neg h, timeoutWindow_contains]
    omega

/-- No other number of whole seconds makes one of the two values. -/
theorem integer_eq_iff {i r : Int} (hr : r = timeoutInfinite ∨ r = timeoutDefault) :
    (if i = timeoutInfinite ∨ i = timeoutDefault then i else i * 1000) = r ↔ i = r := by
  have hinfinite : timeoutInfinite = 2147483647 := rfl
  have hdefault : timeoutDefault = -1 := rfl
  by_cases h : i = timeoutInfinite ∨ i = timeoutDefault
  · rw [if_pos h]
  · rw [if_neg h]
    omega

end DBusHost
