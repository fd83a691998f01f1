import DBusHost.Sorting.Merge

/-!
# Sorting

A list is sorted by taking runs off its front and merging neighbouring ones.  Which
runs are merged when depends on their places: the boundary between two runs has a
`depth`, the level of a balanced tree over all items at which the tree would part the
middles of the two runs, and a run is merged with the one before it as soon as a
boundary that is less deep comes up.

The sort keeps equal items in their order.  If a comparison fails the sort stops, and
what has been sorted and merged until then stays.
-/

namespace DBusHost.Sorting

variable {ε α : Type}

/-- The level at which a balanced tree over `n` items parts two places, which are given
as doubled distances from the left end of the tree. -/
def partingDepth (n : Nat) : Nat → Nat → Nat → Nat
  | 0, _, _ => 0
  | fuel + 1, a, b =>
    if n ≤ a then partingDepth n fuel (2 * (a - n)) (2 * (b - n)) + 1
    else if n ≤ b then 1
    else partingDepth n fuel (2 * a) (2 * b) + 1

/-- The depth of the boundary between a run of `k` items, in front of which `start` items
stand, and the following run of `l` items, in a list of `n` items. -/
def boundaryDepth (n start k l : Nat) : Nat :=
  partingDepth n (n + 1) (2 * start + k) (2 * start + 2 * k + l)

/-- A run that waits to be merged. -/
structure Run (α : Type) where
  items : List α
  /-- The depth of the boundary to the following run. -/
  depth : Nat

/-- The runs that wait to be merged, last one first. -/
structure Waiting (α : Type) where
  runs : List (Run α)
  /-- The patience of the next merge. -/
  patience : Nat

namespace Waiting

def none : Waiting α := ⟨[], enoughWins⟩

def items (w : Waiting α) : List α := (w.runs.reverse.map Run.items).flatten

/-- Merge two neighbouring runs among `later` and `earlier` ones. -/
def merge (before : α → α → Except ε Bool) (patience : Nat) (later : List (Run α))
    (second first : Run α) (earlier : List (Run α)) : Except (Halt ε α) (Waiting α) :=
  let result := mergeRuns before patience first.items second.items
  let w : Waiting α := ⟨later ++ ⟨result.items, first.depth⟩ :: earlier, result.patience⟩
  match result.fault with
  | some e => .error ⟨e, w.items⟩
  | .none => .ok w

/-- Merge the last two runs as long as the boundary between them is deeper than the
given one. -/
def mergeDeeper (before : α → α → Except ε Bool) (depth : Nat) :
    Nat → Waiting α → Except (Halt ε α) (Waiting α)
  | 0, w => .ok w
  | fuel + 1, w =>
    match w.runs with
    | second :: first :: earlier =>
      if depth < first.depth then do
        mergeDeeper before depth fuel (← merge before w.patience [] second first earlier)
      else .ok w
    | _ => .ok w

/-- Put a run behind the others, in a list of `n` items. -/
def push (before : α → α → Except ε Bool) (n : Nat) (w : Waiting α) (run : List α) :
    Except (Halt ε α) (Waiting α) :=
  match w.runs with
  | [] => .ok { w with runs := [⟨run, 0⟩] }
  | last :: earlier => do
    let start := (items ⟨earlier, 0⟩).length
    let depth := boundaryDepth n start last.items.length run.length
    let w ← mergeDeeper before depth w.runs.length w
    return { w with
      runs := ⟨run, 0⟩ :: match w.runs with
        | last :: earlier => { last with depth } :: earlier
        | [] => [] }

/-- Merge all runs.  Of the last three, the first two are merged first if the first is
shorter than the third. -/
def mergeAll (before : α → α → Except ε Bool) :
    Nat → Waiting α → Except (Halt ε α) (Waiting α)
  | 0, w => .ok w
  | fuel + 1, w =>
    match w.runs with
    | third :: second :: first :: earlier => do
      if first.items.length < third.items.length then
        mergeAll before fuel (← merge before w.patience [third] second first earlier)
      else mergeAll before fuel (← merge before w.patience [] third second (first :: earlier))
    | [second, first] => merge before w.patience [] second first []
    | _ => .ok w

end Waiting

/-- Sort the remaining items of a list of `n` items behind the runs that wait. -/
def sortRest (before : α → α → Except ε Bool) (n : Nat) :
    Nat → Waiting α → List α → Except (Halt ε α) (List α)
  | 0, w, xs => .ok (w.items ++ xs)
  | fuel + 1, w, xs =>
    if xs.isEmpty then Waiting.items <$> w.mergeAll before w.runs.length
    else do
      let (run, rest) ← (takeRun before (leastRun n) xs).mapError fun h => h.within w.items []
      let w ← (w.push before n run).mapError fun h => h.within [] (run ++ rest)
      sortRest before n fuel w rest

/-- Sort a list: the fault that stopped the sort, if one did, and the items as they
stand then. -/
def sort (before : α → α → Except ε Bool) (xs : List α) : Option ε × List α :=
  match sortRest before xs.length (xs.length + 1) .none xs with
  | .ok ys => (none, ys)
  | .error h => (some h.fault, h.items)

end DBusHost.Sorting
