import DBusHost.Fault
import DBusHost.Native.Validator
import DBusHost.Signature.Basic
import DBusHost.Text.Quoted

/-!
# Signatures

A `Signature` is a text that a validator has accepted.  `Signature.check` is the one
place where a text becomes a signature; pieces cut out of a signature by walking
over it are signatures too.
-/

namespace DBusHost

/-- A text that has been accepted as a signature. -/
structure Signature where
  text : String
  deriving DecidableEq, Repr

namespace Signature

/-- Accept a text or say why not.  `shown` is how the text is named in the refusal. -/
def check (v : Validator) (shown s : String) : Except Fault Signature :=
  if Text.hasNul s then .error (.signatureHasNul shown)
  else match v.sequence s with
    | .valid => .ok ⟨s⟩
    | .invalid reason => .error (.signatureRejected shown (reason.getD defaultRefusal))

/-- Accept a plain text or say why not. -/
def ofText (v : Validator) (s : String) : Except Fault Signature :=
  check v (Text.quoted s) s

/-- An accepted text has no nul, is accepted by the validator and is kept as it is. -/
theorem check_eq_ok_iff {v : Validator} {shown s : String} {g : Signature} :
    check v shown s = .ok g ↔ Text.hasNul s = false ∧ v.sequence s = .valid ∧ g = ⟨s⟩ := by
  unfold check
  cases hn : Text.hasNul s with
  | true => simp
  | false =>
    cases hv : v.sequence s with
    | valid =>
      simp only [Bool.false_eq_true, if_false, Except.ok.injEq, true_and]
      exact eq_comm
    | invalid reason => simp

/-- The complete types of a signature, or a fault if a validator accepted a text that
is not a list of complete types. -/
def types (g : Signature) : Except Fault (List SigType) :=
  match readTypes? g.text with
  | some ts => .ok ts
  | none => .error (.unknownType (Text.quoted g.text))

end Signature

end DBusHost
