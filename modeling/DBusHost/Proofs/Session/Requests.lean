import DBusHost.Proofs.Session.AtMostOnce
import DBusHost.Proofs.Session.Handover
import DBusHost.Proofs.Session.Usage

/-!
# The parts of a request

A request looks at its arguments, hands the message to the native library, and registers a handler
with the call that comes back.  `Session.solicit` is what happens up to the call, and
`Session.await` is the rest.  The call is a new one, which nobody has claimed.
-/

namespace DBusHost

open Host

section

variable {h h' k : Host} {c : CallId}

/-! ## The parts of a request -/

namespace Session

/-- The message and the timeout of a request, as they are handed to the native library. -/
def arguments (subject : Subject) (timeout : Option Recipe) : Session (MessageId × Int) := do
  let m ← subject.message
  let ms ← milliseconds timeout
  return (m, ms)

end Session

/-- The native library gets ready for a call, with the reply that it will have. -/
def Host.foresee (name : String) (reply : Option Message) : StateM Host CallId := do
  createCall (.start .native (← createReply name reply) false)

namespace Session

/-- A request, up to the point where the native library has taken the message.  The answer is the
call, unless the connection is closed. -/
def solicit (name bus : String) (subject : Subject) (reply : Option Message)
    (timeout : Option Recipe) : Session (Option CallId) := do
  let b ← busNamed bus
  let c ← foresee name reply
  let (m, ms) ← arguments subject timeout
  sendForReply b m c ms

/-- What is left of a request then. -/
def await (name : String) (reaction : Reaction) : Option CallId → Session Answer
  | some c => do
    let p ← Pending.register c reaction
    noteLine name c
    assign name (.pending p)
    return .done
  | none => return .nothing

end Session

theorem perform_request (run : Reacting) (name bus : String) (subject : Subject)
    (reaction : Reaction) (reply : Option Message) (timeout : Option Recipe) :
    Step.perform run (.request name bus subject reaction reply timeout) =
      Session.solicit name bus subject reply timeout >>= Session.await name reaction := by
  simp only [Step.perform, Session.solicit, Session.arguments, foresee, bind_assoc, pure_bind,
    liftM_bind]
  refine bind_congr fun b => bind_congr fun r => bind_congr fun c => bind_congr fun m =>
    bind_congr fun ms => bind_congr fun sent => ?_
  cases sent <;> rfl

/-- The outcome of a request by what comes of sending the message. -/
theorem run_request (run : Reacting) (name bus : String) (subject : Subject) (reaction : Reaction)
    (reply : Option Message) (timeout : Option Recipe) (h : Host) :
    (Step.perform run (.request name bus subject reaction reply timeout)).run.run h =
      match (Session.solicit name bus subject reply timeout).run.run h with
      | (.ok sent, k) => (Session.await name reaction sent).run.run k
      | (.error f, k) => (.error f, k) := by
  rw [perform_request, Session.run_bind]
  rcases (Session.solicit name bus subject reply timeout).run.run h with ⟨_ | _, _⟩ <;> rfl

/-! ## Before anything is handed over -/

namespace Host

/-- The native library has got ready for a call, and nothing has been handed to it. -/
structure Readied (h k : Host) : Prop where
  validator : k.validator = h.validator
  failures : k.failures = h.failures
  buses : k.buses = h.buses
  wrappers : k.wrappers = h.wrappers
  names : k.names = h.names
  pendings : k.pendings = h.pendings
  trace : Records (fun e => ∃ r, e = .created r) h k

theorem readied_foresee (name : String) (reply : Option Message) (h : Host) :
    Readied h ((foresee name reply).run h).2 := by
  cases reply with
  | none => exact ⟨rfl, rfl, rfl, rfl, rfl, rfl, records_of_trace_eq rfl⟩
  | some message => exact ⟨rfl, rfl, rfl, rfl, rfl, rfl, [.created _], rfl, by simp⟩

theorem Readied.succeeds (hk : Readied h k) (r : Routine) :
    ((Host.succeeds r).run k).1 = ((Host.succeeds r).run h).1 :=
  congrArg (fun failures => (failures.call r).1) hk.failures

/-- The call is a new one. -/
theorem foresee_eq (name : String) (reply : Option Message) (h : Host) :
    ((foresee name reply).run h).1 = h.calls.length := by
  cases reply <;> rfl

theorem calls_createReply (name : String) (reply : Option Message) (h : Host) :
    ((createReply name reply).run h).2.calls = h.calls := by
  cases reply <;> rfl

theorem call_foresee (name : String) (reply : Option Message) (h : Host) :
    h.calls.length < ((foresee name reply).run h).2.calls.length ∧
      ((foresee name reply).run h).2.call h.calls.length =
        .start .native ((createReply name reply).run h).1 false := by
  have hcalls := calls_createReply name reply h
  have hcall := call_createCall ((createReply name reply).run h).2
    (.start .native ((createReply name reply).run h).1 false) h.calls.length
  rw [hcalls, if_pos rfl] at hcall
  refine ⟨?_, hcall⟩
  have hlen : (((createReply name reply).run h).2.calls ++
      [Call.start .native ((createReply name reply).run h).1 false]).length =
        h.calls.length + 1 := by rw [hcalls, List.length_append]; rfl
  exact Nat.lt_of_lt_of_eq (Nat.lt_succ_self _) hlen.symm

/-- Nobody has claimed the new call. -/
theorem Orderly.foresee (ho : h.Orderly) (name : String) (reply : Option Message) :
    Acts h ((Host.foresee name reply).run h).2 ∧
      ((Host.foresee name reply).run h).2.IsUnclaimed h.calls.length := by
  have hmoves : Moves Follows (createReply name reply) := moves_createReply name reply
  have hreply := hmoves h ho
  have hclaim := (hreply.orderly ho).isUnclaimed_createCall
    (.start .native ((createReply name reply).run h).1 false)
  rw [calls_createReply] at hclaim
  exact ⟨hreply.tail (.createCall .native _ false), hclaim⟩

end Host

theorem run_message_named (name : String) (h : Host) :
    ((Subject.named name).message.run.run h).1 = match h.names.get? name with
      | some t => (match h.messageOf? t with
        | some m => .ok m
        | none => .error .notMessage)
      | none => .error .noSuchKey := by
  have hrun : (Subject.named name).message.run.run h =
      (Session.thing name >>= fun t => (match h.messageOf? t with
        | some m => pure m
        | none => throw .notMessage : Session MessageId)).run.run h := rfl
  rw [hrun, Session.run_bind_of_eq (Session.reads_thing name), Session.run_thing]
  cases h.names.get? name with
  | none => rfl
  | some t =>
      change ((match h.messageOf? t with
        | some m => pure m
        | none => throw .notMessage : Session MessageId).run.run h).1 = match h.messageOf? t with
          | some m => .ok m
          | none => .error .notMessage
      cases h.messageOf? t <;> rfl

/-- Getting ready makes no difference to what is given as a message. -/
theorem Host.Readied.message (hk : Readied h k) (subject : Subject) :
    (subject.message.run.run k).1 = (subject.message.run.run h).1 := by
  cases subject with
  | foreign => rfl
  | named name =>
      have hmessage : k.messageOf? = h.messageOf? := by
        funext t
        cases t <;> simp only [messageOf?, hk.wrappers]
      rw [run_message_named, run_message_named, hk.names, hmessage]

theorem Host.Readied.milliseconds (hk : Readied h k) (timeout : Option Recipe) :
    ((Session.milliseconds timeout).run.run k).1 =
      ((Session.milliseconds timeout).run.run h).1 := by
  cases timeout with
  | none => rfl
  | some timeout =>
      have hrun : ∀ h : Host, (Session.milliseconds (some timeout)).run.run h =
          (Session.build timeout >>= fun x =>
            Session.ofExcept (timeoutMilliseconds x)).run.run h := fun _ => rfl
      have hbuild : ∀ h : Host, ((Session.build timeout).run.run h).1 =
          timeout.build h.validator := fun _ => rfl
      rw [hrun, hrun, Session.run_bind_of_eq (Session.reads_build timeout),
        Session.run_bind_of_eq (Session.reads_build timeout), hbuild, hbuild, hk.validator]
      cases timeout.build h.validator <;> rfl

theorem Session.run_arguments (subject : Subject) (timeout : Option Recipe) (h : Host) :
    (arguments subject timeout).run.run h = match (subject.message.run.run h).1 with
      | .ok m => (match ((milliseconds timeout).run.run h).1 with
        | .ok ms => (.ok (m, ms), h)
        | .error f => (.error f, h))
      | .error f => (.error f, h) := by
  rw [arguments, run_bind_of_eq (reads_message subject)]
  cases (subject.message.run.run h).1 with
  | error f => rfl
  | ok m =>
      dsimp only
      rw [run_bind_of_eq (reads_milliseconds timeout)]
      cases ((milliseconds timeout).run.run h).1 <;> rfl

theorem Session.reads_arguments (subject : Subject) (timeout : Option Recipe) :
    Moves (· = ·) (arguments subject timeout).run :=
  moves_bind (reads_message subject) fun _ => moves_bind (reads_milliseconds timeout) fun _ =>
    moves_pure _

theorem Host.Readied.arguments (hk : Readied h k) (subject : Subject) (timeout : Option Recipe) :
    (Session.arguments subject timeout).run.run k =
      (((Session.arguments subject timeout).run.run h).1, k) := by
  rw [Session.run_arguments, Session.run_arguments, hk.message, hk.milliseconds]
  cases (subject.message.run.run h).1 with
  | error f => rfl
  | ok m => cases ((Session.milliseconds timeout).run.run h).1 <;> rfl

/-! ## Up to the call -/

section

variable {name bus b : String} {subject : Subject} {reply : Option Message}
  {timeout : Option Recipe}

/-- The arguments are looked at before anything is sent. -/
theorem Session.run_solicit (hbus : ((busNamed bus).run.run h).1 = .ok b) :
    (solicit name bus subject reply timeout).run.run h =
      match ((arguments subject timeout).run.run h).1 with
      | .ok (m, ms) =>
        (sendForReply b m h.calls.length ms).run.run ((foresee name reply).run h).2
      | .error f => (.error f, ((foresee name reply).run h).2) := by
  rw [solicit, run_bind_of_eq (reads_busNamed bus), hbus]
  dsimp only
  rw [run_lift_bind, run_bind, (readied_foresee name reply h).arguments, foresee_eq]
  cases ((arguments subject timeout).run.run h).1 <;> rfl

theorem Session.run_call (r : Routine) (h : Host) :
    (call r).run.run h = (if ((succeeds r).run h).1 then .ok () else .error (.noMemory r),
      ((succeeds r).run h).2) := by
  rw [call, run_lift_bind]
  cases ((succeeds r).run h).1 <;> rfl

theorem Session.run_sendForReply_refused {m : MessageId} {ms : Int}
    (hno : ((succeeds .sendWithReply).run h).1 = false) :
    (sendForReply b m c ms).run.run h =
      (.error (.noMemory .sendWithReply), ((succeeds .sendWithReply).run h).2) := by
  rw [sendForReply, run_bind, run_call, hno]
  rfl

theorem Session.run_sendForReply_closed {m : MessageId} {ms : Int}
    (hok : ((succeeds .sendWithReply).run h).1 = true) (hclosed : (h.bus b).connected = false) :
    (sendForReply b m c ms).run.run h =
      (.ok none, ((record (.sentForReply b ms)).run ((succeeds .sendWithReply).run h).2).2) := by
  let h₁ := ((record (.sentForReply b ms)).run ((succeeds .sendWithReply).run h).2).2
  have hclosed₁ : (h₁.bus b).connected = false := hclosed
  rw [sendForReply, run_bind, run_call, hok]
  change ((if (h₁.bus b).connected then do
      discard (assignSerial b m)
      modifyCall c fun call => { call with attached := true }
      return some c
    else return none : Session (Option CallId))).run.run h₁ = _
  rw [hclosed₁]
  rfl

/-- Nothing is done with calls on the way, and the pending calls stay as they are. -/
structure Host.Idles (h h' : Host) : Prop where
  pendings : h'.pendings = h.pendings
  trace : Records (fun e => e.IsCalm ∨ ∃ r, e = .created r) h h'

instance : IsPreorder Host Idles where
  refl h := ⟨rfl, refl_of (Records _) h⟩
  trans _ _ _ hab hbc :=
    ⟨hbc.pendings.trans hab.pendings, trans_of (Records _) hab.trace hbc.trace⟩

theorem Host.Serene.idles (hs : Serene h h') : Idles h h' := by
  obtain ⟨es, htrace, hes⟩ := hs.toCalm.trace
  exact ⟨hs.pendings, es, htrace, fun e he => .inl (hes e he)⟩

theorem Host.Idles.silent (hs : Idles h h') (p : PendingId) : Silent p h h' := by
  obtain ⟨es, htrace, hes⟩ := hs.trace
  refine ⟨es, htrace, fun id w he => ?_⟩
  rcases hes _ he with hcalm | ⟨r, hr⟩
  · exact hcalm
  · cases hr

theorem Host.Idles.avoids (hs : Idles h h') (c : CallId) : Avoids c h h' := by
  obtain ⟨es, htrace, hes⟩ := hs.trace
  refine ⟨es, htrace, fun e he => ?_⟩
  rcases hes e he with hcalm | ⟨r, rfl⟩
  · exact hcalm.isUseOf_eq_false c
  · rfl

theorem idles_foresee (name : String) (reply : Option Message) :
    Moves Idles (foresee name reply) := by
  intro h
  obtain ⟨es, htrace, hes⟩ := (readied_foresee name reply h).trace
  exact ⟨(readied_foresee name reply h).pendings, es, htrace, fun e he => .inr (hes e he)⟩

theorem idles_solicit : Moves Idles (Session.solicit name bus subject reply timeout).run := by
  refine Session.moves_bind (Session.reads_busNamed bus).of_eq fun b => ?_
  refine Session.moves_bind (Session.moves_lift (idles_foresee name reply)) fun c => ?_
  refine Session.moves_bind (Session.reads_arguments subject timeout).of_eq fun a => ?_
  have hattach : Moves Idles (modifyCall c fun call => { call with attached := true }) :=
    fun _ => ⟨rfl, records_of_trace_eq rfl⟩
  exact Session.moves_sendForReply_of (fun _ _ => Serene.idles) hattach b a.1 a.2

theorem idles_of_solicit {x : Except Fault (Option CallId)}
    (hsent : (Session.solicit name bus subject reply timeout).run.run h = (x, k)) :
    Idles h k := by
  have hidles : Idles h ((Session.solicit name bus subject reply timeout).run.run h).2 :=
    idles_solicit h
  rwa [hsent] at hidles

/-- The native call has a handle, and nothing has been registered with it. -/
structure Host.Outstanding (h : Host) (c : CallId) : Prop where
  kind : (h.call c).kind = .native
  attached : (h.call c).attached = true
  registration : (h.call c).registration = .none
  kept : (h.call c).kept = .none

theorem Host.Outstanding.exists_call (hc : h.Outstanding c) : c < h.calls.length :=
  Nat.lt_of_not_le fun hge => by
    have hattached := hc.attached
    rw [call_of_length_le hge] at hattached
    cases hattached

/-- A call that is handed out is a new one. -/
theorem exists_of_solicit
    (hsent : (Session.solicit name bus subject reply timeout).run.run h = (.ok (some c), k)) :
    c = h.calls.length ∧ ∃ b m ms, (Session.sendForReply b m c ms).run.run
      ((foresee name reply).run h).2 = (.ok (some c), k) := by
  obtain ⟨b, h₁, hbus, -⟩ := Session.exists_of_bind_eq hsent
  rw [Session.run_solicit (by rw [hbus])] at hsent
  cases hargs : ((Session.arguments subject timeout).run.run h).1 with
  | error f =>
      rw [hargs] at hsent
      cases hsent
  | ok a =>
      rw [hargs] at hsent
      obtain rfl : c = h.calls.length := eq_of_sendForReply (congrArg Prod.fst hsent)
      exact ⟨rfl, b, a.1, a.2, hsent⟩

theorem outstanding_of_solicit
    (hsent : (Session.solicit name bus subject reply timeout).run.run h = (.ok (some c), k)) :
    k.Outstanding c := by
  obtain ⟨rfl, b, m, ms, hsent⟩ := exists_of_solicit hsent
  obtain ⟨hlt, hready⟩ := call_foresee name reply h
  have hcall := call_of_sendForReply hlt hsent
  rw [hready] at hcall
  constructor <;> rw [hcall] <;> rfl

/-- Nobody has claimed a call that is handed out. -/
theorem Host.Orderly.solicit (ho : h.Orderly)
    (hsent : (Session.solicit name bus subject reply timeout).run.run h = (.ok (some c), k)) :
    Acts h k ∧ k.IsUnclaimed c := by
  obtain ⟨rfl, b, m, ms, hsent⟩ := exists_of_solicit hsent
  obtain ⟨hacts, hclaim⟩ := ho.foresee name reply
  have hkeeps := keeps_sendForReply b m h.calls.length ms _ (hacts.orderly ho) hclaim
  rw [hsent] at hkeeps
  exact ⟨hacts.trans hkeeps.1, hkeeps.2⟩

end

end

/-- A session that gets a connection and a message. -/
def Script.withConnection (f : Failures) : Script where
  validator := .ofRefusals [] []
  failures := f
  steps := [
    .connection (.get "bus" (.ready (.int 0)) (.ready (.int 0)) (.given "session")),
    .message (.receive "m" { kind := 1 }),
    .message (.consume "m" "m")]

end DBusHost
