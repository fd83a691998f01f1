import DBusHost.TypeCode
import DBusHost.Native.Routine

/-!
# Faults

Everything that can go wrong, by cause.  `Fault.kind` sorts the causes into the
kinds that a caller can tell apart, and `Fault.message?` gives the wording of those
faults that this library words itself.

Faults that report a D-Bus error carry its name and text, and `Fault.report?` gives
these two back.
-/

namespace DBusHost

/-- The kinds of fault that a caller can tell apart. -/
inductive FaultKind where
  | type | value | key | index | property | overflow | undecodable
  | stop | assertion | runtime | memory
  | bus | busFailure | busNoMemory | busInvalidSignature
  deriving DecidableEq, Repr

def FaultKind.name : FaultKind → String
  | type => "TypeError"
  | value => "ValueError"
  | key => "KeyError"
  | index => "IndexError"
  | property => "AttributeError"
  | overflow => "OverflowError"
  | undecodable => "UnicodeDecodeError"
  | stop => "StopIteration"
  | assertion => "AssertionError"
  | runtime => "RuntimeError"
  | memory => "MemoryError"
  | bus => "DBusError"
  | busFailure => "DBusFailure"
  | busNoMemory => "DBusNoMemory"
  | busInvalidSignature => "DBusInvalidSignature"

/-- Why an iteration has no further element. -/
inductive EndReason where
  | emptySignature | endOfSignature | emptyMessage | emptyContainer | endOfMessage
  deriving DecidableEq, Repr

/-- How an argument iterator was used against its mode. -/
inductive Misuse where
  | readFromWriter | writeToReader | closeTopLevel | abandonTopLevel
  /-- An array of dict entries holds something else. -/
  | entryExpected
  deriving DecidableEq, Repr

inductive Fault where
  /-- A value of a kind that the operation does not take. -/
  | wrongKind
  /-- A value of the right kind that the operation cannot use. -/
  | badValue
  | noSuchKey
  | noSuchIndex
  | noSuchAttribute
  | tooLarge
  | outOfMemory
  | undecodable
  /-- An iteration ended inside another one that cannot report it. -/
  | endInside
  | integerExpected (found : String)
  | outOfWindow (value : Int) (signed : Bool) (bits : Int)
  | textExpected (type : Char) (found : String)
  | signatureTextExpected (found : String)
  | signatureHasNul (shown : String)
  | signatureRejected (shown reason : String)
  | notContainerType (shown : String)
  | levelNotInteger (found : String)
  | levelNegative
  | structArity (maker : String)
  | structKeywords (maker : String) (keywords : List String)
  | immutable (maker : String)
  | emptyStruct
  | emptyList
  | emptyMap
  | unguessable (found : String)
  | tooFewValues
  | tooManyValues
  | structNeedsSequence
  | arrayNeedsSequence
  | entriesNeedMap
  /-- A type in a signature that is no D-Bus type. -/
  | unknownType (shown : String)
  /-- An argument in a message whose type code is no D-Bus type. -/
  | unknownArgument (code : Nat)
  | ended (reason : EndReason)
  | misused (misuse : Misuse)
  | noMemory (routine : Routine)
  | cannotLoad (library reason : String)
  /-- A D-Bus error that was reported by a bus or by a reply. -/
  | reported (name : Option String) (text : String)
  | notInstantiable
  | callClosed
  | notMessage
  deriving DecidableEq, Repr

def EndReason.message : EndReason → String
  | emptySignature => "empty signature"
  | endOfSignature => "end of signature iterator"
  | emptyMessage => "empty message iterator"
  | emptyContainer => "empty container"
  | endOfMessage => "end of message iterator"

def Misuse.message : Misuse → String
  | readFromWriter => "cannot read from write iterator"
  | writeToReader => "cannot write to read iterator"
  | closeTopLevel => "cannot close top-level iterator"
  | abandonTopLevel => "cannot abandon top-level iterator"
  | entryExpected => ""

namespace Fault

def kind : Fault → FaultKind
  | wrongKind | integerExpected _ | textExpected .. | signatureTextExpected _
  | notContainerType _ | levelNotInteger _ | structArity _ | structKeywords ..
  | unguessable _ | structNeedsSequence | arrayNeedsSequence | entriesNeedMap
  | notInstantiable | notMessage => .type
  | badValue | outOfWindow .. | levelNegative | emptyStruct | emptyList | emptyMap
  | tooFewValues | tooManyValues | callClosed => .value
  | noSuchKey => .key
  | noSuchIndex => .index
  | noSuchAttribute | immutable _ => .property
  | tooLarge => .overflow
  | outOfMemory => .memory
  | undecodable => .undecodable
  | ended _ => .stop
  | misused _ => .assertion
  | endInside | unknownType _ | unknownArgument _ => .runtime
  | reported .. => .bus
  | cannotLoad .. => .busFailure
  | noMemory _ => .busNoMemory
  | signatureHasNul _ | signatureRejected .. => .busInvalidSignature

/-- The name and text of the D-Bus error that a fault reports. -/
def report? : Fault → Option (Option String × String)
  | reported name text => some (name, text)
  | cannotLoad library reason =>
    some (some errorFailed, "cannot load " ++ library ++ ": " ++ reason)
  | noMemory routine => some (some errorNoMemory, routine.failureText)
  | signatureHasNul shown =>
    some (some errorInvalidSignature, shown ++ ": signature contains a nul character")
  | signatureRejected shown reason =>
    some (some errorInvalidSignature, shown ++ ": " ++ reason)
  | _ => none

/-- A D-Bus error in one line. -/
def reportLine (name : Option String) (text : String) : String :=
  name.getD "None" ++ " -- " ++ text

/-- The wording of a fault that this library words itself. -/
def message? (f : Fault) : Option String :=
  match f with
  | wrongKind | badValue | noSuchKey | noSuchIndex | noSuchAttribute | tooLarge
  | outOfMemory | undecodable | endInside => none
  | integerExpected found => some ("integer expected, not " ++ found)
  | outOfWindow value signed bits =>
    some (toString value ++ " not in range of " ++ (if signed then "signed" else "unsigned")
      ++ " " ++ toString bits ++ "-bit value")
  | textExpected type found =>
    some ("str expected for type " ++ String.singleton type ++ ", not " ++ found)
  | signatureTextExpected found => some ("signature must be a str, not " ++ found)
  | notContainerType shown => some (shown ++ " is not a container type")
  | levelNotInteger found => some ("variant_level must be an int, not " ++ found)
  | levelNegative => some "variant_level must not be negative"
  | structArity maker => some (maker ++ "() takes exactly one positional argument")
  | structKeywords maker keywords =>
    some (maker ++ "() got unexpected keyword argument(s) " ++ String.intercalate ", " keywords)
  | immutable maker => some (maker ++ " object is immutable")
  | emptyStruct => some "D-Bus structs cannot be empty"
  | emptyList => some "Unable to guess signature from an empty list"
  | emptyMap => some "Unable to guess signature from an empty dict"
  | unguessable found =>
    some ("Don't know which D-Bus type to use to encode type '" ++ found ++ "'")
  | tooFewValues => some "not enough values for signature"
  | tooManyValues => some "too many values for signature"
  | structNeedsSequence => some "expecting sequence of values for struct"
  | arrayNeedsSequence => some "expecting sequence of values for array"
  | entriesNeedMap => some "dict expected for array of dict entry"
  | unknownType shown => some ("unrecognized type " ++ shown)
  | unknownArgument code => some ("unrecognized argtype " ++ toString code)
  | ended reason => some reason.message
  | misused misuse => some misuse.message
  | notInstantiable => some "PendingCall cannot be instantiated directly"
  | callClosed => some "PendingCall has been closed"
  | notMessage => some "message must be a Message"
  | reported .. | cannotLoad .. | noMemory _ | signatureHasNul _ | signatureRejected .. =>
    f.report?.map fun (name, text) => reportLine name text

end Fault

end DBusHost
