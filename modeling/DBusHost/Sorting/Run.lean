import DBusHost.Sorting.Bisection

/-!
# Runs

A run is a stretch of items that are in order.  `takeRun` takes the next run off the
front of a list: as many items as are in order already, turned round if each is less
than the one before, and then as many more, put in one by one, as make the run long
enough.

The order is given by `before`, which says whether one item is less than another, and
which may fail.
-/

namespace DBusHost.Sorting

variable {ε α : Type}

/-- A sort that a comparison has stopped: the fault, and the items as they stand. -/
structure Halt (ε α : Type) where
  fault : ε
  items : List α

/-- The same fault among more items. -/
def Halt.within (h : Halt ε α) (front back : List α) : Halt ε α :=
  ⟨h.fault, front ++ h.items ++ back⟩

/-- How many more items belong to the run that ends in `last`: the run goes on while
the next item is less than the last one, or while it is not, as `descending` says. -/
def runLength (before : α → α → Except ε Bool) (descending : Bool) (last : α) :
    List α → Except ε Nat
  | [] => .ok 0
  | x :: xs => do
    if (← before x last) = descending then return (← runLength before descending x xs) + 1
    else return 0

/-- The first run of a list: its length and whether it descends. -/
def firstRun (before : α → α → Except ε Bool) : List α → Except ε (Nat × Bool)
  | [] => .ok (0, false)
  | [_] => .ok (1, false)
  | x :: y :: rest => do
    let descending ← before y x
    return ((← runLength before descending y rest) + 2, descending)

/-- Put items into ordered ones, each behind those that it is not less than. -/
def insertAll (before : α → α → Except ε Bool) (sorted : List α) :
    List α → Except (Halt ε α) (List α)
  | [] => .ok sorted
  | x :: rest =>
    match bisect .forward (fun y => not <$> before x y) sorted 0 sorted.length with
    | .ok i => insertAll before (sorted.take i ++ x :: sorted.drop i) rest
    | .error e => .error ⟨e, sorted ++ x :: rest⟩

/-- The length that runs of a list of the given length are brought up to: what is left
after halving it, rounding up, until at most sixty-four are left. -/
def leastRun (length : Nat) : Nat :=
  let unit := 1 <<< (length.log2 - 5)
  (length + (unit - 1)) / unit

/-- Take a run of `least` items or more off the front of a list, or all items: the run
and the remaining items. -/
def takeRun (before : α → α → Except ε Bool) (least : Nat) (xs : List α) :
    Except (Halt ε α) (List α × List α) :=
  match firstRun before xs with
  | .error e => .error ⟨e, xs⟩
  | .ok (n, descending) =>
    let found := xs.take n
    let run := if descending then found.reverse else found
    let m := max n (min least xs.length)
    match insertAll before run ((xs.take m).drop n) with
    | .ok run => .ok (run, xs.drop m)
    | .error h => .error (h.within [] (xs.drop m))

end DBusHost.Sorting
