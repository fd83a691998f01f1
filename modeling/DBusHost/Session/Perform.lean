import DBusHost.BusError
import DBusHost.Session.Calls
import DBusHost.Session.Things

/-!
# Performing steps

A step is performed on the state of the session and either answers or fails; what it
does to the state stays done even if it fails.  A handler performs its actions one
after the other until one of them raises an exception.

Handlers nest: a step of a handler may deliver another reply.  The nesting is as deep
as there are handlers at most, since a handler is taken out of its slot before it runs
and no step puts one back.
-/

namespace DBusHost

/-- Hand a message to a connection that is to have a reply.  The answer is the call,
unless the connection is closed. -/
def Session.sendForReply (b : String) (m : MessageId) (c : CallId) (ms : Int) :
    Session (Option CallId) := do
  call .sendWithReply
  Host.record (.sentForReply b ms)
  if ((← get).bus b).connected then
    discard (assignSerial b m)
    Host.modifyCall c fun call => { call with attached := true }
    return some c
  return none

def Step.perform (run : Reacting) : Step → Session Answer
  | message s => s.perform
  | iterator s => s.perform
  | call s => s.perform run
  | connection s => s.perform
  | thing s => s.perform
  | expect name reaction reply accepts => do
    let c ← Host.prepareCall name (.standIn accepts) reply
    Host.assign name (.pending (← Pending.register c reaction))
    return .done
  | request name bus subject reaction reply timeout => do
    let b ← Session.busNamed bus
    let c ← Host.createCall (.start .native (← Host.createReply name reply) false)
    let m ← subject.message
    let ms ← Session.milliseconds timeout
    match ← Session.sendForReply b m c ms with
    | some c =>
      let p ← Pending.register c reaction
      Host.noteLine name c
      Host.assign name (.pending p)
      return .done
    | none => return .nothing

/-- The class of the exception that is raised in place of one of a class with one text:
the same class, unless it does not take just one text. -/
def raisedClass (className text : String) : String :=
  match BusErrorClass.ofName? className with
  | some c => match BusError.make c [.text text] with
    | .ok _ => className
    | .error f => f.kind.name
  | none => className

/-- Add an answer to a delivery. -/
def Host.noteAction (n : Nat) (a : Except Fault Answer) : StateM Host Unit :=
  modify fun h => { h with
    deliveries := h.deliveries.modify n fun d => { d with actions := d.actions ++ [a] } }

/-- The reply in a wrapper reports an error, which is raised. -/
def Session.raiseReported (w : WrapperId) : Session Unit := do
  match (← get).messageOf? (.wrapper w) with
  | some m => attempt ((← messageAt m).raiseIfError (← get).validator)
  | none => return

/-- Run the actions of a handler until one raises an exception, given how steps are
performed. -/
def runActions (perform : Step → Session Answer) (w : WrapperId) (n : Nat) :
    List Action → StateM Host (Option String)
  | [] => return none
  | .raise className text :: _ => return some (raisedClass className text)
  | .raiseIfError :: rest => do
    match ← (Session.raiseReported w).result with
    | .ok () => runActions perform w n rest
    | .error f => return some f.kind.name
  | .keep name :: rest => do
    Host.assign name (.wrapper w)
    runActions perform w n rest
  | .step s :: rest => do
    Host.noteAction n (← (perform s).result)
    runActions perform w n rest

/-- How handlers run that nest at most `depth` deep. -/
def reactWithin : Nat → Reacting
  | 0 => fun _ _ _ => return none
  | depth + 1 => fun w n actions => runActions (Step.perform (reactWithin depth)) w n actions

end DBusHost
