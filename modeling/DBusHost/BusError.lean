import DBusHost.Value.Guess

/-!
# D-Bus errors

A D-Bus error has a name and a text, which are shown together in one line.  Three
kinds of it have a fixed name and also count as a general kind of error.
-/

namespace DBusHost

/-- The kinds of D-Bus error that a host can report. -/
inductive BusErrorClass where
  | general | failure | noMemory | invalidSignature
  deriving DecidableEq, Repr

namespace BusErrorClass

def all : List BusErrorClass := [general, failure, noMemory, invalidSignature]

def kind : BusErrorClass → FaultKind
  | general => .bus
  | failure => .busFailure
  | noMemory => .busNoMemory
  | invalidSignature => .busInvalidSignature

def ofName? (s : String) : Option BusErrorClass := all.find? fun c => c.kind.name == s

/-- The name that every error of the kind has. -/
def fixedName? : BusErrorClass → Option String
  | general => none
  | failure => some errorFailed
  | noMemory => some errorNoMemory
  | invalidSignature => some errorInvalidSignature

/-- The published names of the general kinds that an error of the kind counts as. -/
def countsAs : BusErrorClass → List String
  | general | failure => ["DBusError"]
  | noMemory => ["DBusError", "MemoryError"]
  | invalidSignature => ["DBusError", "ValueError"]

end BusErrorClass

structure BusError where
  class_ : BusErrorClass
  name : Value
  text : Value

namespace BusError

/-- Make an error: its text is given, and its name too unless the kind fixes it. -/
def make (c : BusErrorClass) (arguments : List Value) : Except Fault BusError :=
  match c.fixedName?, arguments with
  | none, [name, text] => .ok ⟨c, name, text⟩
  | some name, [text] => .ok ⟨c, .text name, text⟩
  | _, _ => .error .wrongKind

def line (e : BusError) : String := e.name.plain ++ " -- " ++ e.text.plain

end BusError

/-- The error that a native call fills in: unset, or a name and a text. -/
structure ErrorSlot where
  content : Option (String × String)
  deriving DecidableEq, Repr

namespace ErrorSlot

def empty : ErrorSlot := ⟨none⟩

def isSet (e : ErrorSlot) : Bool := e.content.isSome

def raiseIfSet (e : ErrorSlot) : Except Fault Unit :=
  match e.content with
  | some (name, text) => .error (.reported (some name) text)
  | none => .ok ()

end ErrorSlot

/-- Ask a validator about a text that crosses into the native library: whether it is
valid, and the error that is filled in if it is not. -/
def Validator.ask (v : Validator) (single : Bool) (s : String) : Bool × ErrorSlot :=
  match v.judge single s with
  | .valid => (true, .empty)
  | .invalid none => (false, .empty)
  | .invalid (some reason) => (false, ⟨some (errorInvalidSignature, reason)⟩)

end DBusHost
