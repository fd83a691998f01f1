/-!
# The storage form of text

Text is kept in units of one, two or four bytes, whichever is the least that holds
its largest character, each unit with its low byte first.  A key derived from the
stored bytes is therefore shared by a text of small characters and the bytes with
the same codes.

Strings that cross into the native library end at their first nul.
-/

namespace DBusHost.Text

/-- The bytes of a number, lowest first. -/
def lowBytes : Nat → Nat → List UInt8
  | 0, _ => []
  | width + 1, n => UInt8.ofNat n :: lowBytes width (n / 256)

/-- How many bytes a unit of the text takes. -/
def unitWidth (cs : List Char) : Nat :=
  if cs.all (·.toNat < 0x100) then 1
  else if cs.all (·.toNat < 0x10000) then 2
  else 4

/-- The stored bytes of a text. -/
def stored (s : String) : List UInt8 :=
  s.toList.flatMap fun c => lowBytes (unitWidth s.toList) c.toNat

/-- The part of a text before its first nul, which is what the native library sees. -/
def beforeNul (s : String) : String :=
  String.ofList (s.toList.takeWhile (· ≠ '\x00'))

def hasNul (s : String) : Bool :=
  s.toList.contains '\x00'

theorem beforeNul_of_hasNul_eq_false {s : String} (h : hasNul s = false) :
    beforeNul s = s := by
  have hall : ∀ c ∈ s.toList, c ≠ '\x00' := by
    rintro c hc rfl
    simp [hasNul, hc] at h
  have htake : s.toList.takeWhile (· ≠ '\x00') = s.toList := by
    generalize s.toList = cs at hall
    induction cs with
    | nil => rfl
    | cons c cs ih =>
      rw [List.takeWhile_cons_of_pos (by simpa using hall c (by simp)),
        ih fun d hd => hall d (by simp [hd])]
  rw [beforeNul, htake, String.ofList_toList]

theorem hasNul_beforeNul (s : String) : hasNul (beforeNul s) = false := by
  have hall := List.all_takeWhile (p := (· ≠ '\x00')) (l := s.toList)
  simp only [List.all_eq_true] at hall
  simp only [hasNul, beforeNul, String.toList_ofList, List.contains_eq_mem,
    decide_eq_false_iff_not]
  exact fun hmem => by simpa using hall _ hmem

/-- A text ends at its first nul, and all of it is left only if it has none. -/
theorem beforeNul_eq_self_iff {s : String} : beforeNul s = s ↔ hasNul s = false :=
  ⟨fun h => h ▸ hasNul_beforeNul s, beforeNul_of_hasNul_eq_false⟩

theorem beforeNul_beforeNul (s : String) : beforeNul (beforeNul s) = beforeNul s :=
  beforeNul_of_hasNul_eq_false (hasNul_beforeNul s)

end DBusHost.Text
