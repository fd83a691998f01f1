/-!
# Searching ordered items

In ordered items those that belong before a key come first.  A search is told by
`passes` whether an item belongs before the key, and finds out how many do.  It asks of
few items only, and in a fixed order, so that its answer is a definite one even if
`passes` contradicts itself, and so is the item at which `passes` fails.

The items may be listed from either end.  The two ends differ in which of two middle
items is asked first.
-/

namespace DBusHost.Sorting

variable {ε α : Type}

/-- The end from which items are listed. -/
inductive Direction where
  /-- The first item is listed first. -/
  | forward
  /-- The last item is listed first. -/
  | backward
  deriving DecidableEq, Repr

/-- The place between two bounds that halves them. -/
def Direction.middle (d : Direction) (low high : Nat) : Nat :=
  match d with
  | forward => low + (high - low) / 2
  | backward => high - 1 - (high - low) / 2

theorem Direction.le_middle (d : Direction) {low high : Nat} (h : low < high) :
    low ≤ d.middle low high := by
  cases d <;> simp only [middle] <;> omega

theorem Direction.middle_lt (d : Direction) {low high : Nat} (h : low < high) :
    d.middle low high < high := by
  cases d <;> simp only [middle] <;> omega

/-- The number of items that pass, which lies between two bounds, found by halving. -/
def bisect (d : Direction) (passes : α → Except ε Bool) (xs : List α) (low high : Nat) :
    Except ε Nat :=
  if _h : low < high then
    match xs[d.middle low high]? with
    | none => .ok low
    | some x => do
      if ← passes x then bisect d passes xs (d.middle low high + 1) high
      else bisect d passes xs low (d.middle low high)
  else .ok low
termination_by high - low
decreasing_by
  · have := d.le_middle ‹low < high›
    omega
  · have := d.middle_lt ‹low < high›
    omega

/-- Leap over items that pass, each time about twice as far.  The answer is the last
place known to pass and the first one known not to, which may be behind all items. -/
def leap (passes : α → Except ε Bool) (xs : List α) (last next : Nat) :
    Except ε (Nat × Nat) :=
  if h : next < xs.length then do
    if ← passes xs[next] then leap passes xs next (2 * next + 1)
    else return (last, next)
  else return (last, xs.length)
termination_by xs.length - next

/-- The number of items that pass, found by leaping from the first item and halving the
last leap. -/
def gallop (d : Direction) (passes : α → Except ε Bool) (xs : List α) : Except ε Nat :=
  match xs with
  | [] => .ok 0
  | x :: _ => do
    if ← passes x then
      let (last, next) ← leap passes xs 0 1
      bisect d passes xs (last + 1) next
    else return 0

end DBusHost.Sorting
