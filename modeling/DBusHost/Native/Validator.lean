import DBusHost.Text.Storage

/-!
# The judge of signatures

Whether a text is a signature is decided by the native library.  A `Validator` is
such a judge; it answers for lists of complete types and for single complete types,
and may give a reason when it says no.
-/

namespace DBusHost

/-- The answer about a text. -/
inductive Verdict where
  | valid
  | invalid (reason : Option String)
  deriving DecidableEq, Repr

/-- A judge of signature texts. -/
structure Validator where
  /-- Whether a text is a list of complete types. -/
  sequence : String → Verdict
  /-- Whether a text is one complete type. -/
  single : String → Verdict

/-- The answer that refuses a text; a reason ends at its first nul. -/
def Verdict.refusal (reason : Option String) : Verdict := .invalid (reason.map Text.beforeNul)

/-- A judge that refuses the listed texts with the listed reasons and no others.
The second list is for single types only. -/
def Validator.ofRefusals (all single : List (String × Option String)) : Validator where
  sequence s := match all.lookup s with
    | some reason => .refusal reason
    | none => .valid
  single s := match single.lookup s, all.lookup s with
    | some reason, _ => .refusal reason
    | none, some reason => .refusal reason
    | none, none => .valid

/-- What is said of a text that is refused without a reason. -/
def defaultRefusal : String := "not a valid signature"

/-- What the judge says of a text that crosses into the native library. -/
def Validator.judge (v : Validator) (single : Bool) (s : String) : Verdict :=
  if single then v.single (Text.beforeNul s) else v.sequence (Text.beforeNul s)

end DBusHost
