import DBusHost.Signature.Cursor

/-!
# Walks by hand

A walk is a cursor that is moved by hand: it looks at types, moves on, enters containers
and leaves them again.  A move that fails leaves the walk where it is, but trying to
move on counts as a first step even if there is nothing to stand on.
-/

namespace DBusHost

inductive Move where
  /-- Move on as a loop does. -/
  | advance
  | next
  | code
  | elementCode
  | text
  | enter
  | leave
  deriving DecidableEq, Repr

inductive Sight where
  | nothing
  | moved
  | code (n : Nat)
  | text (s : String)
  deriving DecidableEq, Repr

/-- A walk in progress: the levels that have been entered, the innermost first. -/
structure Walk where
  levels : List Cursor
  failures : Failures

/-- A fallible part of a walk. -/
abbrev Walking := ExceptT Fault (StateM Walk)

namespace Walk

/-- The walk that stands before the first type of a signature. -/
def start (g : Signature) (f : Failures) : Walk := ⟨[Cursor.start g], f⟩

def attempt {α : Type} (a : Attempt α) : Walking α := fun w =>
  let (e, f) := a.run.run w.failures
  (e, { w with failures := f })

/-- Stand on other levels. -/
def place (levels : List Cursor) : Walking Unit := modify fun w => { w with levels := levels }

def perform (m : Move) : Walking Sight := do
  match (← get).levels with
  | [] => throw .noSuchIndex
  | c :: outer =>
    match m with
    | .advance =>
      let (reason, c) := c.advance
      place (c :: outer)
      match reason with
      | none => return .moved
      | some reason => throw (.ended reason)
    | .next =>
      match c.next? with
      | some c =>
        place (c :: outer)
        return .moved
      | none => throw (.ended .endOfSignature)
    | .code => return .code c.code
    | .elementCode => return .code c.elementCode
    | .text => return .text (← attempt c.text)
    | .enter =>
      let inner ← attempt c.enter
      place (inner :: c :: outer)
      return .nothing
    | .leave =>
      place outer
      return .nothing

/-- Make moves one after the other; one that fails does not end the walk. -/
def performAll : List Move → StateM Walk (List (Except Fault Sight))
  | [] => return []
  | m :: rest => return (← (perform m).run) :: (← performAll rest)

end Walk

end DBusHost
