import DBusHost.Sorting.Run

/-!
# Merging two runs

Two neighbouring runs become one.  The shorter run is set aside, and the place that it
leaves is filled with items of either run: from the front if the first run is set
aside, from the back if it is the second one.  All lists start at the end where the
merge goes on.

Item is held against item until one run has won often enough in a row.  Then the runs
are searched for how many items win at once, as long as these are many.  How often is
enough, the `patience`, falls while searching pays and rises when it does not, and
outlasts the merge.

If a comparison fails, what was set aside goes back behind the merged items, so that no
item is lost.
-/

namespace DBusHost.Sorting

variable {ε α : Type}

/-- How many wins in a row make a search worth while, to begin with. -/
def enoughWins : Nat := 7

/-- Two runs that are being merged. -/
structure Merging (α : Type) where
  /-- The merged items, last one first. -/
  merged : List α
  /-- What is left of the run that was set aside. -/
  aside : List α
  /-- What is left of the other run, which is in its place. -/
  inPlace : List α
  /-- How many wins in a row end the comparison of item with item. -/
  patience : Nat

/-- How a merge ends: with a fault or without one, and with all items. -/
structure Merged (ε α : Type) where
  fault : Option ε
  items : List α
  patience : Nat

namespace Merging

/-- The merge is over, as all that is left is in order. -/
def finish (m : Merging α) : Merged ε α :=
  ⟨none, m.merged.reverse ++ m.inPlace ++ m.aside, m.patience⟩

/-- The merge is over because of a fault. -/
def stop (m : Merging α) (e : ε) : Merged ε α :=
  ⟨some e, m.merged.reverse ++ m.aside ++ m.inPlace, m.patience⟩

/-- The outcome of comparisons during the merge. -/
def ask {β : Type} (m : Merging α) (answer : Except ε β) : Except (Merged ε α) β :=
  answer.mapError m.stop

/-- Go on, unless the place is filled or just one item is left to fill it. -/
def proceed (m : Merging α) : Except (Merged ε α) (Merging α) :=
  if m.inPlace.isEmpty || m.aside.length ≤ 1 then .error m.finish else .ok m

/-- The next `n` items that were set aside win. -/
def moveAside (m : Merging α) (n : Nat) : Except (Merged ε α) (Merging α) :=
  { m with
    merged := (m.aside.take n).reverse ++ m.merged
    aside := m.aside.drop n }.proceed

/-- The next `n` items that are in their place win. -/
def moveInPlace (m : Merging α) (n : Nat) : Except (Merged ε α) (Merging α) :=
  { m with
    merged := (m.inPlace.take n).reverse ++ m.merged
    inPlace := m.inPlace.drop n }.proceed

/-- Hold item against item, until a run has won often enough in a row; `wins` says
whether an item in its place wins against one set aside.  The counts are the wins in a
row so far. -/
def compete (wins : α → α → Except ε Bool) :
    Nat → Merging α → Nat → Nat → Except (Merged ε α) (Merging α)
  | 0, m, _, _ => .ok m
  | fuel + 1, m, inPlaceWins, asideWins =>
    match m.inPlace, m.aside with
    | y :: _, x :: _ => do
      if ← m.ask (wins y x) then
        let m ← m.moveInPlace 1
        if m.patience ≤ inPlaceWins + 1 then return m
        else compete wins fuel m (inPlaceWins + 1) 0
      else
        let m ← m.moveAside 1
        if m.patience ≤ asideWins + 1 then return m
        else compete wins fuel m 0 (asideWins + 1)
    | _, _ => .ok m

/-- Search for the items set aside that win against the next one in its place, and move
them; the answer also says how many they are. -/
def searchAside (d : Direction) (wins : α → α → Except ε Bool) (m : Merging α) :
    Except (Merged ε α) (Merging α × Nat) :=
  match m.inPlace with
  | [] => .ok (m, 0)
  | y :: _ => do
    let n ← m.ask (gallop d (fun x => not <$> wins y x) m.aside)
    return (← m.moveAside n, n)

/-- Search for the items in their place that win against the next one set aside, and
move them; the answer also says how many they are. -/
def searchInPlace (d : Direction) (wins : α → α → Except ε Bool) (m : Merging α) :
    Except (Merged ε α) (Merging α × Nat) :=
  match m.aside with
  | [] => .ok (m, 0)
  | x :: _ => do
    let n ← m.ask (gallop d (fun y => wins y x) m.inPlace)
    return (← m.moveInPlace n, n)

/-- Search both runs once.  The first of the two neighbouring runs is searched first,
whichever was set aside; the answer also says whether one of the searches paid. -/
def searchBoth (d : Direction) (wins : α → α → Except ε Bool) (m : Merging α) :
    Except (Merged ε α) (Merging α × Bool) := do
  match d with
  | .forward =>
    let (m, k) ← m.searchAside d wins
    let m ← m.moveInPlace 1
    let (m, l) ← m.searchInPlace d wins
    let m ← m.moveAside 1
    return (m, enoughWins ≤ k || enoughWins ≤ l)
  | .backward =>
    let (m, k) ← m.searchInPlace d wins
    let m ← m.moveAside 1
    let (m, l) ← m.searchAside d wins
    let m ← m.moveInPlace 1
    return (m, enoughWins ≤ k || enoughWins ≤ l)

/-- Search both runs as long as that pays. -/
def search (d : Direction) (wins : α → α → Except ε Bool) :
    Nat → Merging α → Except (Merged ε α) (Merging α)
  | 0, m => .ok m
  | fuel + 1, m => do
    let (m, pays) ← m.searchBoth d wins
    if pays then search d wins fuel { m with patience := max 1 (m.patience - 1) }
    else return { m with patience := m.patience + 1 }

/-- Merge to the end, by turns holding item against item and searching.  Every turn
moves an item, so that the number of items bounds the number of turns. -/
def run (d : Direction) (wins : α → α → Except ε Bool) : Nat → Merging α → Merged ε α
  | 0, m => m.finish
  | fuel + 1, m =>
    match m.compete wins (m.aside.length + m.inPlace.length) 0 0 with
    | .error result => result
    | .ok m =>
      match m.search d wins (m.aside.length + m.inPlace.length) with
      | .error result => result
      | .ok m => run d wins fuel m

/-- Merge a run that was set aside with one in its place, whose first item is known to
win. -/
def start (d : Direction) (wins : α → α → Except ε Bool) (m : Merging α) : Merged ε α :=
  match m.moveInPlace 1 with
  | .error result => result
  | .ok m => m.run d wins (m.aside.length + m.inPlace.length)

end Merging

/-- Merge two runs that leave each other no item in its place: the shorter one is set
aside. -/
def mergeOverlapping (before : α → α → Except ε Bool) (patience : Nat) (xs ys : List α) :
    Merged ε α :=
  if xs.length ≤ ys.length then
    Merging.start .forward before ⟨[], xs, ys, patience⟩
  else
    let result :=
      Merging.start .backward (fun x y => before y x) ⟨[], ys.reverse, xs.reverse, patience⟩
    { result with items := result.items.reverse }

/-- Merge two neighbouring runs.  The items of the first run that are not greater than
all of the second one stay where they are, and so do those of the second run that are
not less than all of the first one. -/
def mergeRuns (before : α → α → Except ε Bool) (patience : Nat) (xs ys : List α) :
    Merged ε α :=
  match ys.head?, xs.getLast? with
  | some y, some x =>
    match gallop .forward (fun x => not <$> before y x) xs with
    | .error e => ⟨some e, xs ++ ys, patience⟩
    | .ok k =>
      if xs.length ≤ k then ⟨none, xs ++ ys, patience⟩
      else match gallop .backward (fun y => not <$> before y x) ys.reverse with
      | .error e => ⟨some e, xs ++ ys, patience⟩
      | .ok l =>
        let overlap := ys.length - l
        if overlap = 0 then ⟨none, xs ++ ys, patience⟩
        else
          let result := mergeOverlapping before patience (xs.drop k) (ys.take overlap)
          { result with items := xs.take k ++ result.items ++ ys.drop overlap }
  | _, _ => ⟨none, xs ++ ys, patience⟩

end DBusHost.Sorting
