import DBusHost.Message.Basic
import DBusHost.Value.Recipe

/-!
# Steps of a session

A session is a list of steps on things that are known by names: messages, iterators
over their arguments, pending calls, call handles and connections.

A step that waits for a reply also says what is to be done with it.  This `Reaction`
may be a handler, which is a list of actions; an action may be a step again, so that
handlers can send, wait, cancel and close as any other part of a program can.
-/

namespace DBusHost

/-- What a step is given where a message is expected: something from the table, or a
value that is no message. -/
inductive Subject where
  | named (name : String)
  | foreign

inductive MessageStep where
  | newCall (name : String) (destination path interface member : Recipe)
  | newSignal (name : String) (path interface member : Recipe)
  | newReturn (name call : String)
  | newError (name call : String) (error text : Recipe)
  /-- The native library receives a message and holds the one reference to it. -/
  | receive (name : String) (message : Message)
  /-- The host takes over one reference to a native message. -/
  | consume (name label : String)
  /-- The native library takes one more reference to a message. -/
  | share (label : String)
  /-- How many references there are. -/
  | references (label : String)
  | append (name : String) (signature value : Recipe)
  | objects (name : String)
  | raiseIfError (name : String)

inductive IteratorStep where
  /-- Make an iterator that reads the arguments of a message. -/
  | reader (name message : String)
  /-- Make an iterator that appends to the arguments of a message. -/
  | writer (name message : String)
  /-- Make an iterator over the inside of the current item. -/
  | enter (name iterator : String)
  | advance (iterator : String)
  | restart (iterator : String)
  | object (iterator : String) (level : Recipe)
  | appendBasic (iterator : String) (type : String) (value : Recipe)
  | openContainer (name iterator : String) (type : String) (signature : Recipe)
  | abandon (iterator : String)

/-- Steps on pending calls, on call handles and on what lies behind them. -/
inductive CallStep where
  /-- The reply comes in. -/
  | replyArrives (name : String)
  /-- The native library is done with the data of a notify function. -/
  | freeData (name : String)
  | cancel (name : String)
  | block (name : String)
  | completed (name : String)
  | instantiate
  /-- The handlers that something still refers to. -/
  | live
  /-- Whether the host lock can be had. -/
  | tryLock
  | newHandle (name : String) (reply : Option Message)
  | setNotify (name : String) (notifies frees : Bool) (data : Recipe)
  | handleCompleted (name : String)
  | stealReply (name : String)
  | unreference (name : String)

inductive ThingStep where
  | look (name property : String)
  | set (name property : String) (value : Recipe)
  | close (name : String)
  /-- Close a thing and tell the names of the one that it was opened in. -/
  | closeInside (name : String)
  /-- Forget a name. -/
  | drop (name : String)

/-- How a request to the native library turns out: with nothing, with an error, or
with what was asked for. -/
inductive Outcome (α : Type) where
  | nothing
  | failed (error text : String)
  | given (result : α)

inductive ConnectionStep where
  | get (name : String) (type isPrivate : Recipe) (outcome : Outcome String)
  | isConnected (name : String)
  | flush (name : String)
  | dispatch (name : String) (timeout : Recipe)
  | send (name : String) (message : Subject)
  | sendAndWait (name connection : String) (message : Subject) (outcome : Outcome Message)
      (timeout : Option Recipe)

mutual

/-- What is to be done with a reply. -/
inductive Reaction where
  | absent
  /-- Something that cannot be called. -/
  | inert
  | handler (id : String) (actions : List Action)

/-- What a reply handler does. -/
inductive Action where
  /-- Raise an exception of a class with one text. -/
  | raise (className text : String)
  /-- Raise the error that the reply reports, if it reports one. -/
  | raiseIfError
  /-- Give the reply a name. -/
  | keep (name : String)
  | step (s : Step)

inductive Step where
  | message (s : MessageStep)
  | iterator (s : IteratorStep)
  | call (s : CallStep)
  | connection (s : ConnectionStep)
  | thing (s : ThingStep)
  /-- Make a pending call from a handle that accepts a notify function or not. -/
  | expect (name : String) (reaction : Reaction) (reply : Option Message) (accepts : Bool)
  /-- Send a message and make a pending call for its reply. -/
  | request (name connection : String) (message : Subject) (reaction : Reaction)
      (reply : Option Message) (timeout : Option Recipe)

end

instance : Inhabited Reaction := ⟨.absent⟩

mutual

/-- The number of handlers in a reaction, those of nested steps included. -/
def Reaction.handlers : Reaction → Nat
  | .absent | .inert => 0
  | .handler _ actions => 1 + Action.listHandlers actions

def Action.handlers : Action → Nat
  | .raise .. | .raiseIfError | .keep _ => 0
  | .step s => s.handlers

def Action.listHandlers : List Action → Nat
  | [] => 0
  | a :: rest => a.handlers + Action.listHandlers rest

def Step.handlers : Step → Nat
  | .expect _ r _ _ => r.handlers
  | .request _ _ _ r _ _ => r.handlers
  | .message _ | .iterator _ | .call _ | .connection _ | .thing _ => 0

end

end DBusHost
