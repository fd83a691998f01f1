import DBusHost.Session.Event
import DBusHost.Session.Table

/-!
# The state of a session

A `Host` is everything that the host and the native library hold at one moment of a
session: native objects and the references to them, the host's own objects, the names
by which the session knows them, the host lock, and what has happened so far.

Native messages and connections are used through wrappers.  A wrapper is live as long
as a name or a delivery in progress refers to it.
-/

namespace DBusHost

/-- The host's object for a native message or connection. -/
structure Wrapper where
  resource : Resource
  live : Bool
  deriving DecidableEq, Repr

/-- How a native call behaves. -/
inductive CallKind where
  /-- A stand-in, which accepts a notify function or not, calls it again whenever the
  reply comes in, and takes no notice of being cancelled. -/
  | standIn (accepts : Bool)
  /-- A call of the native library, which completes once at most. -/
  | native
  deriving DecidableEq, Repr

/-- A call whose reply is outstanding, together with the host's handle on it. -/
structure Call where
  kind : CallKind
  /-- The reply, until it is taken out. -/
  reply : Option MessageId
  completed : Bool
  cancelled : Bool
  /-- The functions that the native side would call. -/
  registration : Registration
  /-- The functions that the handle keeps alive. -/
  kept : Registration
  /-- Whether the handle refers to the call. -/
  attached : Bool

/-- A call whose reply has not come in, with nothing registered. -/
def Call.start (kind : CallKind) (reply : Option MessageId) (attached : Bool) : Call :=
  ⟨kind, reply, false, false, .none, .none, attached⟩

/-- Whether it would change anything if the reply came in. -/
def Call.isReady (call : Call) : Bool :=
  match call.kind with
  | .standIn _ => call.registration.notifies
  | .native => !call.completed && !call.cancelled

instance : Inhabited Call := ⟨.start .native none false⟩

/-- A pending call: the owner of a handle and of the slot for a reaction. -/
structure Pending where
  call : CallId
  /-- Whether the handle has not been given up. -/
  holding : Bool
  /-- The reaction to the reply, until it is taken out. -/
  slot : Reaction

instance : Inhabited Pending := ⟨⟨0, false, .absent⟩⟩

structure Bus where
  connected : Bool
  /-- The serial number of the last message that was given one. -/
  serials : Int
  deriving DecidableEq, Repr

/-- A connection on which nothing has been sent. -/
def Bus.fresh : Bus := ⟨true, 0⟩

/-- An iterator that reads arguments. -/
structure ReadIterator where
  /-- The message whose arguments are read, unless nothing is read. -/
  message : Option MessageId
  /-- The positions of the containers that were entered, from the outermost one on. -/
  path : List Nat
  reader : Reader

/-- An iterator that appends arguments. -/
structure WriteIterator where
  message : MessageId
  place : Place
  parent : Option WriterId

/-- What a name can stand for. -/
inductive Thing where
  | wrapper (id : WrapperId)
  | pending (id : PendingId)
  | handle (call : CallId)
  | reader (id : ReaderId)
  | writer (id : WriterId)
  deriving DecidableEq, Repr

/-- A delivery in progress: the wrapper of the reply, and the handler that was taken
out for it, if it is one. -/
structure Frame where
  wrapper : WrapperId
  handler : Option String
  deriving DecidableEq, Repr

/-- The state of a session. -/
structure Host where
  validator : Validator
  failures : Failures
  messages : List Message := []
  references : Table Resource Int := []
  wrappers : List Wrapper := []
  buses : Table String Bus := []
  calls : List Call := []
  pendings : List Pending := []
  readers : List ReadIterator := []
  writers : List WriteIterator := []
  /-- What the session's names stand for. -/
  names : Table String Thing := []
  /-- The names that native objects keep when no thing is called so any more. -/
  labels : Table String Resource := []
  /-- The newest call that was made under each name. -/
  lines : Table String CallId := []
  /-- How often the host lock is held. -/
  lockDepth : Nat := 0
  frames : List Frame := []
  /-- The pending calls that are being waited for. -/
  waiting : List PendingId := []
  deliveries : List Delivery := []
  trace : List Event := []

/-- A fallible part of a session. -/
abbrev Session := ExceptT Fault (StateM Host)

namespace Host

/-- The state in which nothing has been made. -/
def start (v : Validator) (f : Failures) : Host where
  validator := v
  failures := f

def call (h : Host) (c : CallId) : Call := h.calls.getD c default

def pending (h : Host) (p : PendingId) : Pending := h.pendings.getD p default

def message? (h : Host) (m : MessageId) : Option Message := h.messages[m]?

/-- The number of references to a native object. -/
def count (h : Host) (r : Resource) : Int := (h.references.get? r).getD 0

/-- The names that stand for a thing, in order. -/
def namesOf (h : Host) (t : Thing) : List String :=
  (h.names.keysWhere (· = t)).mergeSort fun a b => a ≤ b

/-- The live wrapper of a native object. -/
def wrapperOf? (h : Host) (r : Resource) : Option WrapperId :=
  h.wrappers.findIdx? fun w => w.live && w.resource = r

/-- Something refers to the wrapper. -/
def refersTo (h : Host) (w : WrapperId) : Bool :=
  h.names.any (fun e => e.2 = .wrapper w) || h.frames.any fun f => f.wrapper = w

def record (e : Event) : StateM Host Unit :=
  modify fun h => { h with trace := h.trace ++ [e] }

def modifyCall (c : CallId) (f : Call → Call) : StateM Host Unit :=
  modify fun h => { h with calls := h.calls.modify c f }

def modifyPending (p : PendingId) (f : Pending → Pending) : StateM Host Unit :=
  modify fun h => { h with pendings := h.pendings.modify p f }

def modifyMessage (m : MessageId) (f : Message → Message) : StateM Host Unit :=
  modify fun h => { h with messages := h.messages.modify m f }

/-- Count a call of a native routine; the answer is whether it succeeds. -/
def succeeds (r : Routine) : StateM Host Bool := do
  let (ok, f) := (← get).failures.call r
  modify fun h => { h with failures := f }
  return ok

end Host

namespace Session

/-- A plain result as a part of a session. -/
def ofExcept {α : Type} (e : Except Fault α) : Session α := fun h => (e, h)

/-- The result of a part of a session, which is then no failure of what contains it. -/
def result {α : Type} (s : Session α) : StateM Host (Except Fault α) := s.run

/-- Call a native routine, which fails if the script of failures says so. -/
def call (r : Routine) : Session Unit := do
  unless ← Host.succeeds r do throw (.noMemory r)

def attempt {α : Type} (a : Attempt α) : Session α := fun h =>
  let (e, f) := a.run.run h.failures
  (e, { h with failures := f })

def build (r : Recipe) : Session Value := do
  ofExcept (r.build (← get).validator)

def messageAt (m : MessageId) : Session Message := do
  match (← get).message? m with
  | some message => return message
  | none => throw .noSuchKey

def writeOn {α : Type} (m : MessageId) (w : Writing α) : Session α := do
  let message ← messageAt m
  let h ← get
  let (e, desk) := w.run.run ⟨h.failures, message.sheet, []⟩
  set { h with
    failures := desk.failures
    messages := h.messages.modify m fun message => { message with sheet := desk.sheet }
    trace := h.trace ++ desk.calls.map Event.pen }
  ofExcept e

end Session

end DBusHost
