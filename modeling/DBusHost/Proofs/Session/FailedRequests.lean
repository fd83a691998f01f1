import DBusHost.Proofs.Session.Requests
import DBusHost.Proofs.Session.Parting

/-!
# Requests that give no pending call

A request can fail on the way, or the connection may be closed, and then there is no pending call.
No part of the state depends on the handler in that case, so that whatever happens later would have
happened with any other handler.

The last thing that can fail is the registration.  By then the call is a live one: it is
cancelled and given up, and nothing is done with it from then on.
-/

namespace DBusHost

open Host

section

variable {h h' k : Host} {c : CallId}

/-! ## Functions that cannot be registered -/

namespace Host

/-- The library refuses to register functions with a call, which is cancelled and given up.  What
is left of the pending call is closed. -/
def turnDown (c : CallId) : StateM Host Unit := do
  discard (succeeds .setNotify)
  record (.logged .debug "cannot register notify function, abandoning call" none)
  record (.cancelled c)
  modifyCall c fun call => { call with cancelled := true }
  giveUp c
  modify fun h => { h with pendings := h.pendings ++ [⟨c, false, .absent⟩] }

theorem length_turnDown (c : CallId) (h : Host) :
    ((turnDown c).run h).2.pendings.length = h.pendings.length + 1 :=
  List.length_append

theorem run_abandon (hc : h.Outstanding c) (p : PendingId) : (abandon c p).run h = (do
      record (.logged .debug "cannot register notify function, abandoning call" none)
      record (.cancelled c)
      modifyCall c fun call => { call with cancelled := true }
      giveUp c
      discard (takeSlot p) : StateM Host Unit).run h := by
  let h₁ := ((record (.logged .debug
    "cannot register notify function, abandoning call" none)).run h).2
  let h₂ := ((modifyCall c fun call => { call with cancelled := true }).run
    ((record (.cancelled c)).run h₁).2).2
  have hcall : h₂.call c = { h.call c with cancelled := true } :=
    call_modifyCall_self (h := ((record (.cancelled c)).run h₁).2) hc.exists_call
      fun call => { call with cancelled := true }
  have hcancel : (cancelCall c).run h₁ = _ := cancelCall_native (h := h₁) hc.kind
  have hgive : (unreference c).run h₂ = _ :=
    unanswered.unreference_attached (by rw [hcall]; exact hc.kind)
      (by rw [hcall]; exact hc.attached)
  -- the handle keeps no functions that would have to be taken away
  have hkept : (h₂.call c).kept = .none := by rw [hcall]; exact hc.kept
  rw [hkept] at hgive
  have habandon : (abandon c p).run h = (do
      cancelCall c
      unreference c
      discard (takeSlot p) : StateM Host Unit).run h₁ := rfl
  rw [habandon, StateT.run_bind, hcancel]
  change (do
      unreference c
      discard (takeSlot p) : StateM Host Unit).run h₂ = _
  rw [StateT.run_bind, hgive]
  rfl

/-- If the functions cannot be registered, nothing is left of the reaction. -/
theorem run_register_refused (hc : h.Outstanding c)
    (hno : ((succeeds .setNotify).run h).1 = false) (reaction : Reaction) :
    (Pending.register c reaction).run.run h =
      (.error (.noMemory .setNotify), ((turnDown c).run h).2) := by
  have hset := unanswered.setNotify_of_not_succeeds (h := ((enlist c reaction).run h).2)
    ⟨true, true, .slot h.pendings.length⟩ hc.kind hno
  have hpendings : (h.pendings ++ [Pending.mk c false reaction]).modify h.pendings.length
      (fun pending => { pending with slot := .absent }) =
        h.pendings ++ [Pending.mk c false .absent] :=
    List.modifyTailIdx_add _ 0 h.pendings [Pending.mk c false reaction]
  rw [run_register, run_enroll, hset]
  dsimp only
  rw [run_abandon (h := ((succeeds .setNotify).run ((enlist c reaction).run h).2).2)
    ⟨hc.kind, hc.attached, hc.registration, hc.kept⟩]
  refine Prod.ext rfl ?_
  refine Eq.trans ?_ (congrArg (fun pendings => { ((turnDown c).run h).2 with pendings })
    hpendings)
  rfl

/-- The call has been given up, and nothing is registered with it. -/
theorem detached_turnDown (hc : h.Outstanding c) :
    Detached ((turnDown c).run h).2 h.pendings.length c := by
  let h₁ := ((modifyCall c fun call => { call with cancelled := true }).run h).2
  have hlt : c < h₁.calls.length :=
    Nat.lt_of_lt_of_eq hc.exists_call (List.length_modify ..).symm
  have hcall : ((turnDown c).run h).2.call c =
      { h.call c with cancelled := true, attached := false } := by
    refine (call_modifyCall_self (h := h₁) hlt fun call => { call with attached := false }).trans ?_
    rw [call_modifyCall_self hc.exists_call]
  have hpending : (h.pendings ++ [Pending.mk c false .absent]).getD h.pendings.length default =
      ⟨c, false, .absent⟩ := by
    simp [List.getD_eq_getElem?_getD]
  refine ⟨⟨?_, hpending, ?_, ?_⟩, ?_⟩
  · exact Nat.lt_of_lt_of_eq (Nat.lt_succ_self _) (length_turnDown c h).symm
  · rw [hcall]
    exact hc.kind
  · rw [hcall]
  · rw [hcall]
    exact hc.registration

theorem pending_turnDown_of_lt {p : PendingId} (hp : p < h.pendings.length) :
    ((turnDown c).run h).2.pending p = h.pending p := by
  change (h.pendings ++ [_]).getD p default = _
  simp [pending, List.getD_eq_getElem?_getD, List.getElem?_append_left hp]

theorem trace_turnDown (c : CallId) (h : Host) : ((turnDown c).run h).2.trace = h.trace ++
    [.logged .debug "cannot register notify function, abandoning call" none, .cancelled c,
      .unreferenced c] := by
  change h.trace ++ [_] ++ [_] ++ [_] = _
  simp

theorem silent_turnDown (p : PendingId) (c : CallId) (h : Host) :
    Silent p h ((turnDown c).run h).2 :=
  ⟨_, trace_turnDown c h, by simp⟩

end Host

/-! ## Outcomes -/

section

variable {run : Reacting} {name bus b : String} {subject : Subject} {reaction : Reaction}
  {reply : Option Message} {timeout : Option Recipe}

theorem run_await_refused (hc : h.Outstanding c)
    (hno : ((succeeds .setNotify).run h).1 = false) :
    (Session.await name reaction (some c)).run.run h =
      (.error (.noMemory .setNotify), ((turnDown c).run h).2) := by
  rw [Session.await, Session.run_bind, run_register_refused hc hno]

theorem run_await_accepted (hc : h.Outstanding c)
    (hok : ((succeeds .setNotify).run h).1 = true) :
    ((Session.await name reaction (some c)).run.run h).1 = .ok .done := by
  have hset := unanswered.setNotify_fst (h := ((enlist c reaction).run h).2)
    ⟨true, true, .slot h.pendings.length⟩ hc.kind
  rw [Session.await, Session.run_bind, run_register, run_enroll]
  rcases hrun : (setNotify c ⟨true, true, .slot h.pendings.length⟩).run
    ((enlist c reaction).run h).2 with ⟨ok, h'⟩
  rw [hrun] at hset
  obtain rfl : ok = true := hset.trans hok
  rfl

/-- If a request gives no pending call, no pending call has been made, or one has been turned
down. -/
theorem request_cases (hno : ((Step.perform run
    (.request name bus subject reaction reply timeout)).run.run h).1 ≠ .ok .done) :
    (∃ x k, Idles h k ∧ ∀ r, (Step.perform run
      (.request name bus subject r reply timeout)).run.run h = (x, k)) ∨
    ∃ c k, (Session.solicit name bus subject reply timeout).run.run h = (.ok (some c), k) ∧
      ∀ r, (Step.perform run (.request name bus subject r reply timeout)).run.run h =
        (.error (.noMemory .setNotify), ((turnDown c).run k).2) := by
  simp only [run_request] at hno ⊢
  rcases hsent : (Session.solicit name bus subject reply timeout).run.run h with ⟨f | sent, k⟩
  · exact .inl ⟨.error f, k, idles_of_solicit hsent, fun _ => rfl⟩
  · cases sent with
    | none => exact .inl ⟨.ok .nothing, k, idles_of_solicit hsent, fun _ => rfl⟩
    | some c =>
        have hc := outstanding_of_solicit hsent
        rw [hsent] at hno
        cases hok : ((succeeds .setNotify).run k).1 with
        | true => exact absurd (run_await_accepted hc hok) hno
        | false => exact .inr ⟨c, k, rfl, fun r => run_await_refused hc hok⟩

/-- What is given as a message is something else. -/
def Subject.IsOther (h : Host) : Subject → Prop
  | .foreign => True
  | .named name => ∃ t, h.names.get? name = some t ∧ h.messageOf? t = none

/-- What holds of a request in a state, by its outcome for each handler. -/
structure Host.LeavesNothing (h : Host) (name bus : String) (subject : Subject)
    (reply : Option Message) (timeout : Option Recipe)
    (outcome : Reaction → Except Fault Answer × Host) : Prop where
  /-- If there is no pending call, the result and the state are the same for all handlers, so
  whatever happens later does not depend on the handler. -/
  forgotten : ∀ r, (outcome r).1 ≠ .ok .done → ∀ r', outcome r' = outcome r
  /-- No handler has been started, and the slots are as before.  If a pending call was made on the
  way, its slot is empty in all that may follow, and no handler is started from it. -/
  silent : ∀ r, (outcome r).1 ≠ .ok .done →
    (∀ p, Silent p h (outcome r).2) ∧
    (∀ p < h.pendings.length, (outcome r).2.pending p = h.pending p) ∧
    ∀ p, h.pendings.length ≤ p → p < (outcome r).2.pendings.length →
      ∀ h', Acts (outcome r).2 h' →
        (h'.pending p).slot = .absent ∧ Silent p (outcome r).2 h'
  /-- What follows are acts, at any time. -/
  follows : ∀ r h', Acts (outcome r).2 h' →
    ∀ n s, Acts h' ((Step.perform (reactWithin n) s).run.run h').2
  /-- The arguments are looked at before anything is handed to the native library. -/
  checked : ∀ b e, ((Session.busNamed bus).run.run h).1 = .ok b →
    ((Session.arguments subject timeout).run.run h).1 = .error e →
    ∀ r, (outcome r).1 = .error e ∧ Readied h (outcome r).2
  /-- Something that is no message is reported as such, whatever the timeout. -/
  notMessage : subject.IsOther h →
    ((Session.arguments subject timeout).run.run h).1 = .error .notMessage
  /-- If the message cannot be sent, there is no pending call. -/
  refused : ∀ b a, ((Session.busNamed bus).run.run h).1 = .ok b →
    ((Session.arguments subject timeout).run.run h).1 = .ok a →
    ((succeeds .sendWithReply).run h).1 = false →
    ∀ r, (outcome r).1 = .error (.noMemory .sendWithReply) ∧
      (outcome r).2.pendings = h.pendings
  /-- If the connection is closed, nothing is returned, and there is no pending call. -/
  closed : ∀ b a, ((Session.busNamed bus).run.run h).1 = .ok b →
    ((Session.arguments subject timeout).run.run h).1 = .ok a →
    ((succeeds .sendWithReply).run h).1 = true → (h.bus b).connected = false →
    ∀ r, (outcome r).1 = .ok .nothing ∧ (outcome r).2.pendings = h.pendings
  /-- If the functions cannot be registered with the new call, it has been cancelled once and then
  given up once, and nothing else is ever done with it: its reply is not stolen, and it calls
  nothing back.  Disposing of what is left of the pending call does nothing. -/
  abandoned : ∀ c k,
    (Session.solicit name bus subject reply timeout).run.run h = (.ok (some c), k) →
    ((succeeds .setNotify).run k).1 = false → c = h.calls.length ∧
    ∀ r, (outcome r).1 = .error (.noMemory .setNotify) ∧ ∀ h', Acts (outcome r).2 h' →
      (∃ es, h'.trace = h.trace ++ es ∧
        es.filter (Event.isUseOf c) = [.cancelled c, .unreferenced c]) ∧
      (h'.call c).registration = .none ∧
      (h'.pending h.pendings.length).slot = .absent ∧
      (Pending.close h.pendings.length).run h' = ((), h')

theorem filter_isUseOf_eq_nil {es : List Event} (hes : ∀ e ∈ es, e.isUseOf c = false) :
    es.filter (Event.isUseOf c) = [] :=
  List.filter_eq_nil_iff.mpr fun e he => by simp [hes e he]

theorem arguments_of_isOther (hsubject : subject.IsOther h) :
    ((Session.arguments subject timeout).run.run h).1 = .error .notMessage := by
  have hmessage : (subject.message.run.run h).1 = .error .notMessage := by
    cases subject with
    | foreign => rfl
    | named name =>
        obtain ⟨t, hname, hother⟩ := hsubject
        rw [run_message_named, hname]
        simp only [hother]
  rw [Session.run_arguments, hmessage]

/-- Nothing but cancelling and giving up is ever done with a call that is turned down. -/
theorem Host.Idles.turnDown (hs : Idles h k) (hc : k.Outstanding c)
    (ho : ((Host.turnDown c).run k).2.Orderly) (ha : Acts ((Host.turnDown c).run k).2 h') :
    (∃ es, h'.trace = h.trace ++ es ∧
        es.filter (Event.isUseOf c) = [.cancelled c, .unreferenced c]) ∧
      (h'.call c).registration = .none ∧
      (h'.pending h.pendings.length).slot = .absent ∧
      (Pending.close h.pendings.length).run h' = ((), h') := by
  have hdetached := detached_turnDown hc
  rw [hs.pendings] at hdetached
  obtain ⟨hdetached', fs, hafter, hfs⟩ := ha.detached ho hdetached
  obtain ⟨es, hbefore, hes⟩ := hs.avoids c
  refine ⟨⟨es ++ [.logged .debug "cannot register notify function, abandoning call" none,
    .cancelled c, .unreferenced c] ++ fs, ?_, ?_⟩, hdetached'.registration,
    by rw [hdetached'.pending], hdetached'.toParted.close⟩
  · rw [hafter, trace_turnDown, hbefore, List.append_assoc, List.append_assoc, List.append_assoc]
  · rw [List.filter_append, List.filter_append, filter_isUseOf_eq_nil hes,
      filter_isUseOf_eq_nil hfs]
    simp [Event.isUseOf]

/-- A request that gives no pending call, be it that it fails or that the connection is closed,
leaves nothing behind from which the handler could be run. -/
theorem Step.request_leaves_nothing {v : Validator} {f : Failures} (hreach : Acts (.start v f) h)
    (run : Reacting) (name bus : String) (subject : Subject) (reply : Option Message)
    (timeout : Option Recipe) :
    Fault.notMessage.kind = .type ∧ (Fault.noMemory .setNotify).kind = .busNoMemory ∧
      h.LeavesNothing name bus subject reply timeout fun reaction =>
        (Step.perform run (.request name bus subject reaction reply timeout)).run.run h := by
  have ho := hreach.orderly (orderly_start v f)
  have hacts : ∀ r, Acts h
      ((Step.perform run (.request name bus subject r reply timeout)).run.run h).2 :=
    fun r => follows_request name bus subject r reply timeout h ho
  refine ⟨rfl, rfl, ?_⟩
  constructor
  case forgotten =>
    intro r hno r'
    rcases request_cases hno with ⟨x, k, -, hall⟩ | ⟨c, k, -, hall⟩ <;> rw [hall, hall]
  case silent =>
    intro r hno
    have ho' := (hacts r).orderly ho
    rcases request_cases hno with ⟨x, k, hs, hall⟩ | ⟨c, k, hsent, hall⟩
    · rw [hall r]
      refine ⟨hs.silent, fun p _ => ?_, fun p hge hlt => ?_⟩
      · rw [pending, pending, hs.pendings]
      · exact absurd (hs.pendings ▸ hlt) (Nat.not_lt.mpr hge)
    · have hs := idles_of_solicit hsent
      have hdetached := detached_turnDown (outstanding_of_solicit hsent)
      rw [hall r] at ho' ⊢
      refine ⟨fun p => trans_of (Silent p) (hs.silent p) (silent_turnDown p c k),
        fun p hp => ?_, fun p hge hlt h' ha => ?_⟩
      · rw [pending_turnDown_of_lt (hs.pendings ▸ hp), pending, pending, hs.pendings]
      · have hle : p ≤ k.pendings.length :=
          Nat.le_of_lt_succ (Nat.lt_of_lt_of_eq hlt (length_turnDown c k))
        obtain rfl : p = k.pendings.length := Nat.le_antisymm hle (hs.pendings ▸ hge)
        have hslot : (((turnDown c).run k).2.pending k.pendings.length).slot = .absent := by
          rw [hdetached.pending]
        exact ⟨ha.slot_eq_absent ho' hlt hslot, ha.silent ho' hlt hslot⟩
  case follows =>
    intro r h' ha n s
    exact follows_step (follows_reactWithin n) s h' (ha.orderly ((hacts r).orderly ho))
  case checked =>
    intro b e hbus hargs r
    rw [run_request, Session.run_solicit hbus, hargs]
    exact ⟨rfl, readied_foresee name reply h⟩
  case notMessage => exact arguments_of_isOther
  case refused =>
    intro b a hbus hargs hno r
    have hready := readied_foresee name reply h
    have hno' : ((succeeds .sendWithReply).run ((foresee name reply).run h).2).1 = false :=
      (hready.succeeds .sendWithReply).trans hno
    rw [run_request, Session.run_solicit hbus, hargs]
    simp only [Session.run_sendForReply_refused hno']
    exact ⟨trivial, hready.pendings⟩
  case closed =>
    intro b a hbus hargs hok hclosed r
    have hready := readied_foresee name reply h
    have hok' : ((succeeds .sendWithReply).run ((foresee name reply).run h).2).1 = true :=
      (hready.succeeds .sendWithReply).trans hok
    have hclosed' : (((foresee name reply).run h).2.bus b).connected = false := by
      rw [Host.bus, hready.buses]
      exact hclosed
    rw [run_request, Session.run_solicit hbus, hargs]
    simp only [Session.run_sendForReply_closed hok' hclosed']
    exact ⟨rfl, hready.pendings⟩
  case abandoned =>
    intro c k hsent hno
    have hc := outstanding_of_solicit hsent
    refine ⟨(exists_of_solicit hsent).1, fun r => ?_⟩
    have ho' := (hacts r).orderly ho
    rw [run_request, hsent] at ho' ⊢
    simp only [run_await_refused hc hno] at ho' ⊢
    exact ⟨trivial, fun h' ha => (idles_of_solicit hsent).turnDown hc ho' ha⟩

end

end

/-- The call is cancelled and given up, and when the reply comes in, nobody takes it. -/
theorem Step.request_leaves_nothing_unregistered :
    let h := (Script.withConnection [(.setNotify, 1)]).run.2
    let o := (Step.perform (reactWithin 1) (.request "p" "bus" (.named "m") (.handler "h" [])
      (some { kind := 2 }) none)).run.run h
    o.1 = .error (.noMemory .setNotify) ∧
      (∃ es, ((opening 0).run o.2).2.trace = h.trace ++ es ∧
        es.filter (Event.isUseOf 0) = [.cancelled 0, .unreferenced 0]) ∧
      (((opening 0).run o.2).2.pending 0).slot = .absent := by
  intro h o
  obtain ⟨-, -, hleaves⟩ := Step.request_leaves_nothing
    (Script.acts_run (.withConnection [(.setNotify, 1)])) (reactWithin 1) "p" "bus" (.named "m")
    (some { kind := 2 }) none
  let k := ((Session.solicit "p" "bus" (.named "m") (some { kind := 2 }) none).run.run h).2
  have hsent : (Session.solicit "p" "bus" (.named "m") (some { kind := 2 }) none).run.run h =
      (.ok (some 0), k) := Prod.ext rfl rfl
  have hno : ((succeeds .setNotify).run k).1 = false := by decide +kernel
  have hcall : 0 < o.2.calls.length := by decide +kernel
  obtain ⟨herror, hafter⟩ := (hleaves.abandoned 0 k hsent hno).2 (.handler "h" [])
  obtain ⟨hevents, -, hslot, -⟩ := hafter _ (.single (.opening hcall))
  exact ⟨herror, hevents, hslot⟩

end DBusHost
