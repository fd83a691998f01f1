import DBusHost.Session.Step

/-!
# What happens in a session

Everything that a session does to the native library, to its own lock, handlers and
log is an `Event`, and a session keeps all its events in the order in which they
happen.  Some events can be seen from outside; the others are there because statements
about the order of things need them.

The module also has what a step answers with, and the record of a delivered reply.
-/

namespace DBusHost

abbrev MessageId := Nat
abbrev CallId := Nat
abbrev PendingId := Nat
abbrev WrapperId := Nat
abbrev ReaderId := Nat
abbrev WriterId := Nat

/-- A native object whose references are counted. -/
inductive Resource where
  | message (id : MessageId)
  | bus (name : String)
  deriving DecidableEq, Repr

/-- What a notify function is registered with. -/
inductive UserData where
  /-- The slot of a pending call. -/
  | slot (pending : PendingId)
  | note (value : Value)

/-- A notify function and a free function with their data.  Each of the functions may
be missing; a registration without both is none. -/
structure Registration where
  notifies : Bool
  frees : Bool
  data : UserData

def Registration.none : Registration := ⟨false, false, .note .null⟩

/-- How serious a log record is. -/
inductive LogLevel where
  | debug | warning | error
  deriving DecidableEq, Repr

def LogLevel.name : LogLevel → String
  | debug => "DEBUG"
  | warning => "WARNING"
  | error => "ERROR"

/-- One thing that happens. -/
inductive Event where
  /-- A call that writes arguments. -/
  | pen (call : PenCall)
  /-- A native object comes into being with one reference to it. -/
  | created (resource : Resource)
  /-- The native library takes one more reference. -/
  | shared (resource : Resource)
  /-- The host takes over a reference. -/
  | adopted (resource : Resource)
  /-- The host gives back a reference. -/
  | released (resource : Resource)
  /-- A notify function is asked for, or none any more. -/
  | notifySet (call : CallId) (notifies : Bool)
  | cancelled (call : CallId)
  | blocked (call : CallId)
  | unreferenced (call : CallId)
  /-- The reply is taken out of a call. -/
  | stolen (call : CallId) (reply : MessageId)
  /-- A call is marked as completed. -/
  | completed (call : CallId)
  /-- A notify function is called with its data. -/
  | notified (call : CallId) (data : UserData)
  /-- A free function is called with its data. -/
  | freed (call : CallId) (data : UserData)
  | locked
  | unlocked
  /-- A handler starts on the reply in a wrapper. -/
  | started (pending : PendingId) (handler : String) (wrapper : WrapperId)
  | finished (pending : PendingId) (raised : Option String)
  | busRequested (isPrivate : Bool) (type : Value)
  | sent (bus : String)
  | sentForReply (bus : String) (milliseconds : Int)
  | sentAndAwaited (bus : String) (milliseconds : Int)
  | dispatched (bus : String) (milliseconds : Int)
  | closed (bus : String)
  | flushed (bus : String)
  | logged (level : LogLevel) (text : String) (exception : Option String)
  | warned (text : String)

/-- What a step answers with. -/
inductive Answer where
  | done
  | flag (b : Bool)
  | number (i : Int)
  | text (s : String)
  | value (x : Value)
  | values (xs : List Value)
  | names (ns : List String)
  /-- There is no object where one was asked for. -/
  | nothing
  /-- Whether a connection is missing, and the names that stand for it already. -/
  | connection (missing : Bool) (same : List String)

/-- A reply that was given to a handler. -/
structure Delivery where
  handler : String
  /-- The kind of the reply. -/
  kind : Int
  /-- The arguments of the reply. -/
  objects : Except Fault (List Value)
  /-- What the handler's steps have answered so far. -/
  actions : List (Except Fault Answer)

end DBusHost
