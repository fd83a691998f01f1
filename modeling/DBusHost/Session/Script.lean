import DBusHost.Session.Perform

/-!
# Running a session

The steps of a session are performed one after the other, from a state in which nothing
has been made; a step that fails does not end the session.  What is reported of a step
is its answer, the events it caused and the deliveries that began during it.
-/

namespace DBusHost

structure Report where
  answer : Except Fault Answer
  events : List Event
  deliveries : List Delivery

/-- A session: what its native side does, and its steps. -/
structure Script where
  validator : Validator
  failures : Failures
  steps : List Step

namespace Script

def handlers (s : Script) : Nat := s.steps.foldr (fun step n => step.handlers + n) 0

end Script

def reportStep (react : Reacting) (s : Step) : StateM Host Report := do
  let before ← get
  let answer ← (s.perform react).result
  let after ← get
  return ⟨answer, after.trace.drop before.trace.length,
    after.deliveries.drop before.deliveries.length⟩

def reportSteps (react : Reacting) : List Step → StateM Host (List Report)
  | [] => return []
  | s :: rest => return (← reportStep react s) :: (← reportSteps react rest)

namespace Script

/-- Run a session.  The handlers of all steps together bound how deep they can nest. -/
def run (s : Script) : List Report × Host :=
  (reportSteps (reactWithin s.handlers) s.steps).run (.start s.validator s.failures)

def reports (s : Script) : List Report := s.run.1

end Script

end DBusHost
