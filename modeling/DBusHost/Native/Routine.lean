/-!
# Native routines that can fail

Some routines of the native library report that memory has run out.  A `Failures`
value is a script of such reports: it says for a routine which of its coming calls
fails.  Every call counts the script of its routine down by one, so a script with
no entry for a routine never makes it fail.
-/

namespace DBusHost

/-- The native routines whose failure is reported as exhausted memory. -/
inductive Routine where
  | signatureText
  | newMethodCall | newSignal | newMethodReturn | newError
  | messageSignatureText
  | appendBasic | openContainer | closeContainer
  | setNotify
  | send | sendWithReply
  deriving DecidableEq, Repr

namespace Routine

/-- The native name of the routine, without the library's own name in front. -/
def name : Routine → String
  | signatureText => "signature_iter_get_signature"
  | newMethodCall => "message_new_method_call"
  | newSignal => "message_new_signal"
  | newMethodReturn => "message_new_method_return"
  | newError => "message_new_error"
  | messageSignatureText => "message_iter_get_signature"
  | appendBasic => "message_iter_append_basic"
  | openContainer => "message_iter_open_container"
  | closeContainer => "message_iter_close_container"
  | setNotify => "pending_call_set_notify"
  | send => "connection_send"
  | sendWithReply => "connection_send_with_reply"

def all : List Routine :=
  [signatureText, newMethodCall, newSignal, newMethodReturn, newError,
    messageSignatureText, appendBasic, openContainer, closeContainer, setNotify,
    send, sendWithReply]

def ofName? (s : String) : Option Routine := all.find? fun r => r.name == s

/-- What is said when the routine fails. -/
def failureText : Routine → String
  | signatureText => "dbus_" ++ signatureText.name ++ " failure"
  | messageSignatureText => "dbus_" ++ messageSignatureText.name ++ " failure"
  | r => "dbus_" ++ r.name ++ " failed"

end Routine

/-- A script of failures: `(r, n)` says that the `n`-th coming call of `r` fails. -/
abbrev Failures := List (Routine × Nat)

namespace Failures

/-- Count a call of a routine; the answer is whether the call succeeds. -/
def call (r : Routine) : Failures → Bool × Failures
  | [] => (true, [])
  | (s, n) :: rest =>
    if s = r then (n != 1, (s, n - 1) :: rest)
    else
      let (ok, rest) := call r rest
      (ok, (s, n) :: rest)

@[simp] theorem call_nil (r : Routine) : call r [] = (true, []) := rfl

end Failures

end DBusHost
