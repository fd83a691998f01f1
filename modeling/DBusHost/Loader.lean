import DBusHost.Fault

/-!
# Loading the native library

The native library is loaded when the first of its routines is looked up, under the
name that the environment gives or else under a default name.  A load that fails is
tried again at the next look-up; after one that succeeds the library stays loaded.  The
loader's own attributes are found without it.
-/

namespace DBusHost

/-- The name of the native library if nobody gives another one. -/
def defaultLibrary : String := "libdbus-1.so.3"

/-- The attributes that a loader has itself. -/
def loaderAttributes : List String :=
  ["_lib", "_lock", "__class__", "__delattr__", "__dir__", "__doc__", "__eq__",
    "__format__", "__ge__", "__getattr__", "__getattribute__", "__getstate__", "__gt__",
    "__hash__", "__init__", "__init_subclass__", "__le__", "__lt__", "__module__", "__ne__",
    "__new__", "__reduce__", "__reduce_ex__", "__repr__", "__setattr__", "__sizeof__",
    "__slots__", "__str__", "__subclasshook__"]

/-- What a load of the native library leads to: a reason why it failed, or the
routines that it has. -/
abbrev LoadOutcome := Except String (List String)

/-- The library as far as it is known: its routines once it is loaded, and the names
it has been asked for under. -/
structure Loader where
  library : String
  routines : Option (List String)
  requests : List String
  deriving Repr

namespace Loader

/-- A library that has not been loaded yet. -/
def start (environment : Option String) : Loader :=
  ⟨environment.getD defaultLibrary, none, []⟩

/-- Load the library, unless it is loaded. -/
def load (l : Loader) (outcome : LoadOutcome) : Except Fault (List String) × Loader :=
  match l.routines with
  | some names => (.ok names, l)
  | none =>
    let l := { l with requests := l.requests ++ [l.library] }
    match outcome with
    | .error reason => (.error (.cannotLoad l.library reason), l)
    | .ok names => (.ok names, { l with routines := some names })

/-- Look a routine up; `outcome` is what loading the library would lead to. -/
def lookup (l : Loader) (outcome : LoadOutcome) (name : String) : Except Fault Unit × Loader :=
  if loaderAttributes.contains name then (.ok (), l)
  else
    let (found, l) := l.load outcome
    (found.bind fun names => if names.contains name then .ok () else .error .noSuchAttribute, l)

/-- Look routines up one after the other: each answer, with the names the library has
been asked for under until then.  The outcomes say what a load leads to at the first
look-up and at the later ones. -/
def lookupAll (l : Loader) (first later : LoadOutcome) :
    List String → List (Except Fault Unit × List String)
  | [] => []
  | name :: rest =>
    let (answer, l) := l.lookup first name
    (answer, l.requests) :: lookupAll l later later rest

end Loader

end DBusHost
