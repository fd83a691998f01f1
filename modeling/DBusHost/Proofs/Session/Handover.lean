import DBusHost.Proofs.Session.AtMostOnce

/-!
# Handing a reply over

A call is under way from the moment it is sent, but its notify function is registered later.
If the reply comes in after that, the handler gets it unless the pending call has been given
up before.  If it has come in by then, no notification is to be expected any more, and the
handler never gets it.
-/

namespace DBusHost

open Host

/-- The event gives up the reply of a pending call on a call. -/
def Event.Releases (p : PendingId) (c : CallId) : Event → Prop
  | .freed _ (.slot q) => q = p
  | .cancelled d | .unreferenced d => d = c
  | _ => False

section

variable {h h' : Host} {c : CallId} {p : PendingId} {m : MessageId} {id : String}
variable {actions : List Action}

namespace Host

/-- The pending call has been cancelled, closed or had its data freed before the reply came
in, if it has come in at all. -/
def GivenUp (h : Host) (p : PendingId) (c : CallId) : Prop :=
  ∃ before after, h.trace = before ++ after ∧ .completed c ∉ before ∧
    ∃ e ∈ before, e.Releases p c

/-- The handler of the pending call has been started on the reply. -/
def Started (h : Host) (p : PendingId) (id : String) (m : MessageId) : Prop :=
  ∃ w x, .started p id w ∈ h.trace ∧ h.wrappers[w]? = some x ∧ x.resource = .message m

/-- A call of the native library that has been sent and has not been handed over yet. -/
structure Sent (h : Host) (c : CallId) (m : MessageId) : Prop where
  unclaimed : h.IsUnclaimed c
  kind : (h.call c).kind = .native
  attached : (h.call c).attached = true
  cancelled : (h.call c).cancelled = false
  reply : (h.call c).reply = some m

/-- A pending call waits for its reply. -/
structure Waiting (h : Host) (p : PendingId) (c : CallId) (m : MessageId) (id : String)
    (actions : List Action) : Prop where
  exists_pending : p < h.pendings.length
  pending : h.pending p = ⟨c, true, .handler id actions⟩
  kind : (h.call c).kind = .native
  completed : (h.call c).completed = false
  cancelled : (h.call c).cancelled = false
  attached : (h.call c).attached = true
  reply : (h.call c).reply = some m
  registration : (h.call c).registration = ⟨true, true, .slot p⟩

theorem GivenUp.mono (hg : h.GivenUp p c) (hh : Grows h h') : h'.GivenUp p c := by
  obtain ⟨before, after, htrace, hcompleted, hreleases⟩ := hg
  obtain ⟨es, hes⟩ := hh.trace
  exact ⟨before, after ++ es, by rw [← hes, htrace, List.append_assoc], hcompleted, hreleases⟩

theorem Started.mono (hs : h.Started p id m) (hh : Grows h h') : h'.Started p id m := by
  obtain ⟨w, x, hmem, hx, hresource⟩ := hs
  obtain ⟨y, hy, hyx⟩ := hh.wrappers w x hx
  exact ⟨w, y, hh.trace.subset hmem, hy, hyx.trans hresource⟩

theorem Started.countP_eq_one (hs : h.Started p id m) (ho : h.Orderly) :
    h.trace.countP (Event.isStartOf p) = 1 := by
  obtain ⟨w, x, hmem, -⟩ := hs
  have hpos : 0 < h.trace.countP (Event.isStartOf p) :=
    List.countP_pos_iff.mpr ⟨_, hmem, by simp [Event.isStartOf]⟩
  exact Nat.le_antisymm (ho.countP_isStartOf_le_one p) hpos

/-! ## Waiting for the reply -/

theorem Waiting.of_same (hw : Waiting h p c m id actions)
    (hpendings : h.pendings.length ≤ h'.pendings.length) (hpending : h'.pending p = h.pending p)
    (hcall : h'.call c = h.call c) : Waiting h' p c m id actions := by
  obtain ⟨hlt, hp, hkind, hcompleted, hcancelled, hattached, hreply, hregistration⟩ := hw
  rw [← hcall] at hkind hcompleted hcancelled hattached hreply hregistration
  exact ⟨Nat.lt_of_lt_of_le hlt hpendings, hpending.trans hp, hkind, hcompleted, hcancelled,
    hattached, hreply, hregistration⟩

theorem Waiting.of_touches {P : PendingId → Prop} {C : CallId → Prop}
    (hw : Waiting h p c m id actions) (hh : Touches P C h h') (hp : ¬ P p) (hc : ¬ C c) :
    Waiting h' p c m id actions :=
  hw.of_same (Nat.le_of_eq hh.size.symm) (hh.pending p hp) (hh.call c hc)

theorem Waiting.call_eq (hw : Waiting h p c m id actions) : (h.pending p).call = c := by
  rw [hw.pending]

theorem Waiting.rings (hw : Waiting h p c m id actions) : h.Rings c p where
  ready := by
    unfold Call.isReady
    rw [hw.kind, hw.completed, hw.cancelled]
    rfl
  notifies := by rw [hw.registration]
  data := by rw [hw.registration]

/-- If the call notifies a pending call whose handler is in the slot and the reply is there,
the handler is started on it. -/
theorem started_opening (hr : h.Rings c p) (hc : c < h.calls.length)
    (hp : p < h.pendings.length) (hm : (h.call c).reply = some m)
    (hslot : (h.pending p).slot = .handler id actions) :
    ((opening c).run h).2.Started p id m := by
  obtain ⟨w, h', hs, hopening⟩ := opening_of_handler hr hc hp hm hslot
  obtain ⟨x, hx, hresource⟩ := hs.wrapper
  rw [hopening]
  exact ⟨w, x, List.mem_append_right _ List.mem_cons_self, hx, hresource⟩

theorem Waiting.started_opening (hw : Waiting h p c m id actions) (ho : h.Orderly) :
    ((opening c).run h).2.Started p id m := by
  have hc : c < h.calls.length := hw.call_eq ▸ ho.owned p hw.exists_pending
  exact Host.started_opening hw.rings hc hw.exists_pending hw.reply (by rw [hw.pending])

/-- Whatever takes the reaction out of the slot of a waiting pending call shows. -/
theorem Waiting.exists_releases (hw : Waiting h p c m id actions) (hr : Release h p h') :
    ∃ e ∈ h'.trace, e.Releases p c := by
  have hcall : (h.pending p).call = c := hw.call_eq
  have hholding : (h.pending p).holding = true := by rw [hw.pending]
  cases hr with
  | cancel =>
      refine ⟨.cancelled c, ?_, rfl⟩
      have htrace : ((Pending.cancel p).run h).2.trace = ((cancelCall c).run h).2.trace := by
        rw [Pending.cancel, StateT.run_bind, StateT.run_get, pure_bind]
        simp only [hholding, hcall, if_true]
        rfl
      rw [htrace, cancelCall_native hw.kind]
      exact List.mem_append_right _ List.mem_cons_self
  | close =>
      refine ⟨.unreferenced c, ?_, rfl⟩
      have hclosed : ∀ h₁ : Host, h₁.call c = h.call c →
          .unreferenced c ∈ ((unreference c).run h₁).2.trace := by
        intro h₁ hsame
        rw [Callbacks.unreference_attached _ (hsame ▸ hw.kind) (hsame ▸ hw.attached)]
        split
        · exact List.mem_append_right _ List.mem_cons_self
        · exact List.mem_append_right _ List.mem_cons_self
      have htrace : ((Pending.close p).run h).2.trace = ((unreference c).run ((modifyPending p
          fun pending => { pending with holding := false }).run h).2).2.trace := by
        rw [Pending.close, StateT.run_bind, StateT.run_get, pure_bind]
        simp only [hholding, hcall, if_true]
        rfl
      rw [htrace]
      exact hclosed _ rfl
  | free hfrees hdata =>
      refine ⟨.freed c (.slot p), ?_, rfl⟩
      rw [hcall, hw.registration]
      exact List.mem_append_right _ List.mem_cons_self

/-- What may become of a waiting pending call in one act. -/
theorem Waiting.act (hw : Waiting h p c m id actions) (ho : h.Orderly) (ha : Act h h') :
    Waiting h' p c m id actions ∨ h'.GivenUp p c ∨ h'.Started p id m := by
  have hlt := hw.exists_pending
  have hcall : (h.pending p).call = c := hw.call_eq
  rcases ha.cases ho with ⟨C, hC, hh⟩ | ⟨q, hq, hr⟩ | ⟨d, reaction, hd, rfl⟩ | ⟨d, hd, hready, rfl⟩
  · exact .inl (hw.of_touches hh not_false (hcall ▸ hC p hlt))
  · have hh := hr.touches ho hq
    by_cases hqp : q = p
    · subst hqp
      have hcompleted : (h'.call c).completed = false := (hh.completed c).trans hw.completed
      refine .inr (.inl ⟨h'.trace, [], (List.append_nil _).symm, fun hmem => ?_,
        hw.exists_releases hr⟩)
      rw [((ha.orderly ho).completed c).mpr hmem] at hcompleted
      cases hcompleted
    · refine .inl (hw.of_touches hh (Ne.symm hqp) fun hc => hqp ?_)
      exact ho.distinct q hq p hlt (hc.symm.trans hcall.symm)
  · have hne : c ≠ d := fun hc => hd.loose.2 p hlt (hcall.trans hc)
    have hw' : Waiting ((enlist d reaction).run h).2 p c m id actions :=
      hw.of_same (le_length_enlist h d reaction) (pending_enlist_of_lt hlt) rfl
    rw [run_register]
    exact .inl (hw'.of_touches ((ho.enlisted hd reaction).touches_enroll (ho.enlist hd))
      (Nat.ne_of_lt hlt) hne)
  · by_cases hdc : d = c
    · subst hdc
      exact .inr (.inr (hw.started_opening ho))
    · have hw' : Waiting ((mark d).run h).2 p c m id actions :=
        hw.of_same (Nat.le_refl _) rfl (by rw [call_mark, if_neg (fun hc => hdc hc.1)])
      rcases ho.opening_cases hd hready with ⟨-, hh⟩ | ⟨q, hq, hqd, -, hcases⟩
      · exact .inl (hw'.of_touches hh not_false (Ne.symm hdc))
      · have hqp : p ≠ q := by
          rintro rfl
          exact hdc (hqd.symm.trans hcall)
        rcases hcases with ⟨hh, -⟩ | ⟨id', actions', m', w, h', -, -, hs, hopening⟩
        · exact .inl (hw'.of_touches hh hqp (Ne.symm hdc))
        · rw [hopening]
          exact .inl ((hw'.of_touches hs.touches hqp (Ne.symm hdc)).of_same (Nat.le_refl _)
            rfl rfl)

end Host

/-- What may become of a waiting pending call in the long run. -/
theorem Acts.fate (ha : Acts h h') (ho : h.Orderly) (hw : Waiting h p c m id actions) :
    Waiting h' p c m id actions ∨ h'.GivenUp p c ∨ h'.Started p id m := by
  induction ha with
  | refl => exact .inl hw
  | tail hs ha ih =>
      have ho' := Acts.orderly hs ho
      rcases ih with hw | hg | hstarted
      · exact hw.act ho' ha
      · exact .inr (.inl (hg.mono (ha.grows ho')))
      · exact .inr (.inr (hstarted.mono (ha.grows ho')))

/-! ## Before the pending call is made -/

namespace Host

/-- Sending a request makes the handle refer to the call and leaves the call alone otherwise. -/
theorem call_of_sendForReply {b : String} {n : MessageId} {ms : Int} (hc : c < h.calls.length)
    (hsend : (Session.sendForReply b n c ms).run.run h = (.ok (some c), h')) :
    h'.call c = { h.call c with attached := true } := by
  obtain ⟨_, h₁, hcalled, hsend⟩ := Session.exists_of_bind_eq hsend
  obtain ⟨_, h₂, hrecorded, hsend⟩ := Session.exists_of_bind_eq hsend
  obtain ⟨h₃, h₄, hgot, hsend⟩ := Session.exists_of_bind_eq hsend
  have hcalm₁ := (Session.serene_call .sendWithReply h).toCalm
  have hsent : Moves Calm (record (.sentForReply b ms)) := calm_record trivial
  have hcalm₂ := hsent h₁
  rw [hcalled] at hcalm₁
  obtain ⟨-, rfl⟩ := Prod.mk.inj hrecorded
  obtain ⟨-, rfl⟩ := Prod.mk.inj hgot
  split at hsend
  · obtain ⟨_, h₅, hnumbered, hsend⟩ := Session.exists_of_bind_eq hsend
    have hcalm₅ := Session.moves_discard (Session.serene_assignSerial b n).calm
      ((record (.sentForReply b ms)).run h₁).2
    change (discard (Session.assignSerial b n)).run.run
      ((record (.sentForReply b ms)).run h₁).2 = _ at hnumbered
    rw [hnumbered] at hcalm₅
    have hcalls : h₅.calls = h.calls := hcalm₅.calls.trans (hcalm₂.calls.trans hcalm₁.calls)
    obtain ⟨-, rfl⟩ := Prod.mk.inj hsend
    refine (call_modifyCall h₅ c c fun call => { call with attached := true }).trans ?_
    rw [if_pos ⟨rfl, hcalls ▸ hc⟩, call, hcalls]
    rfl
  · cases hsend

/-- Once the native library has taken a request, its call has been sent. -/
theorem Orderly.sent_of_sendForReply {b : String} {n : MessageId} {ms : Int} (ho : h.Orderly)
    (hsend : (Session.sendForReply b n h.calls.length ms).run.run
      ((createCall (.start .native (some m) false)).run h).2 =
        (.ok (some h.calls.length), h')) : h'.Sent h.calls.length m := by
  have hact : Act h ((createCall (.start .native (some m) false)).run h).2 :=
    .createCall .native (some m) false
  have hclaim := ho.isUnclaimed_createCall (.start .native (some m) false)
  have hkeeps := keeps_sendForReply b n h.calls.length ms
    ((createCall (.start .native (some m) false)).run h).2 (hact.orderly ho) hclaim
  rw [hsend] at hkeeps
  have hcall := call_of_sendForReply hclaim.loose.1 hsend
  rw [call_createCall, if_pos rfl] at hcall
  refine ⟨hkeeps.2, ?_, ?_, ?_, ?_⟩ <;> rw [hcall] <;> rfl

/-- Marking the call as completed and noting that down leaves it a call that has been sent. -/
theorem Sent.of_marked (hs : h.Sent c m) (hcalls : h'.calls = ((mark c).run h).2.calls)
    (hpendings : h'.pendings = h.pendings) (hnames : h'.names = h.names)
    (htrace : ∀ e ∈ h'.trace, e ∈ h.trace ∨ e = .completed c ∨ ∃ x, e = .notified c (.note x)) :
    h'.Sent c m ∧ (h'.call c).completed = true := by
  have hc : c < h.calls.length := hs.unclaimed.loose.1
  have hmarked : ((mark c).run h).2.call c = { h.call c with completed := true } := by
    rw [call_mark, if_pos ⟨rfl, hc⟩]
  have hcall : h'.call c = { h.call c with completed := true } := by
    rw [← hmarked, call, hcalls]
    rfl
  have hloose : h'.IsLoose c := by
    constructor
    · rw [hcalls]
      exact Nat.lt_of_lt_of_eq hc (List.length_modify ..).symm
    · intro p hp
      rw [Host.pending, hpendings]
      exact hs.unclaimed.loose.2 p (hpendings ▸ hp)
  have hunused : ∀ e ∈ h'.trace, e ≠ .cancelled c ∧ e ≠ .unreferenced c := by
    intro e he
    rcases htrace e he with he | rfl | ⟨x, rfl⟩
    · exact hs.unclaimed.unused e he
    · simp
    · simp
  refine ⟨⟨⟨hloose, hnames ▸ hs.unclaimed.unnamed, hunused⟩, ?_, ?_, ?_, ?_⟩, ?_⟩
  all_goals rw [hcall]
  · exact hs.kind
  · exact hs.attached
  · exact hs.cancelled
  · exact hs.reply

/-- The reply may come in before the pending call is made. -/
theorem Sent.opening (hs : h.Sent c m) (ho : h.Orderly) :
    ((Host.opening c).run h).2.Sent c m ∧ (((Host.opening c).run h).2.call c).completed = true := by
  have hrings : ∀ p, ¬ h.Rings c p := fun p hr => ho.data_ne_slot hs.unclaimed.loose p hr.data
  cases hcompleted : (h.call c).completed with
  | true =>
      have hready : (h.call c).isReady = false := by
        unfold Call.isReady
        rw [hs.kind, hcompleted]
        rfl
      rw [opening_of_not_isReady hready]
      exact ⟨hs, hcompleted⟩
  | false =>
      have hready : (h.call c).isReady = true := by
        unfold Call.isReady
        rw [hs.kind, hcompleted, hs.cancelled]
        rfl
      rcases opening_of_not_rings hready hrings with hopening | ⟨x, hopening⟩
      · rw [hopening]
        refine hs.of_marked rfl rfl rfl ?_
        intro e he
        rcases List.mem_append.mp he with he | he
        · exact .inl he
        · exact .inr (.inl (List.mem_singleton.mp he))
      · rw [hopening]
        refine hs.of_marked rfl rfl rfl ?_
        intro e he
        rcases List.mem_append.mp he with he | he
        · rcases List.mem_append.mp he with he | he
          · exact .inl he
          · exact .inr (.inl (List.mem_singleton.mp he))
        · exact .inr (.inr ⟨x, List.mem_singleton.mp he⟩)

end Host

/-! ## Registering -/

namespace Host

theorem calls_freeData (c : CallId) (r : Registration) (h : Host) :
    ((freeData c r).run h).2.calls = h.calls := by
  rw [Callbacks.run_freeData]
  split
  · cases r.data with
    | slot p => rfl
    | note x => rfl
  · rfl

/-- If a native call accepts functions, they are registered and nothing else has changed. -/
theorem call_setNotify {r : Registration} (hk : (h.call c).kind = .native)
    (hc : c < h.calls.length) (hset : (setNotify c r).run h = (true, h')) :
    h'.call c = { h.call c with registration := r, kept := r } := by
  have hok : ((succeeds .setNotify).run h).1 = true := by
    rw [← Callbacks.setNotify_fst unanswered r hk, hset]
  rw [Callbacks.setNotify_of_succeeds _ r hk hok] at hset
  obtain ⟨-, rfl⟩ := Prod.mk.inj hset
  let h₁ := ((freeData c (h.call c).registration).run ((swap c r).run h).2).2
  have hcalls : h₁.calls = ((swap c r).run h).2.calls := calls_freeData c _ _
  have hlen : c < h₁.calls.length := by
    rw [hcalls, length_swap]
    exact hc
  have hswap : h₁.call c = { h.call c with registration := r } :=
    (congrArg (fun calls => calls.getD c default) hcalls).trans (call_swap h hc r)
  exact (call_modifyCall_self hlen _).trans (by rw [hswap])

/-- The call and the new pending call after the functions have been registered. -/
theorem Sent.registered {reaction : Reaction} (hs : h.Sent c m) (ho : h.Orderly)
    (hset : (setNotify c ⟨true, true, .slot h.pendings.length⟩).run
      ((enlist c reaction).run h).2 = (true, h')) :
    h'.pending h.pendings.length = ⟨c, false, reaction⟩ ∧ h'.pendings.length =
        h.pendings.length + 1 ∧ h.calls.length ≤ h'.calls.length ∧
      h'.call c = { h.call c with
        registration := ⟨true, true, .slot h.pendings.length⟩
        kept := ⟨true, true, .slot h.pendings.length⟩ } ∧ h'.Orderly := by
  have he := ho.enlisted hs.unclaimed reaction
  have htouches : Touches (fun _ => False) (· = c) ((enlist c reaction).run h).2
      ((setNotify c ⟨true, true, .slot h.pendings.length⟩).run
        ((enlist c reaction).run h).2).2 := he.touches
  rw [hset] at htouches
  exact ⟨(htouches.pending _ not_false).trans pending_enlist_self,
    htouches.size.trans (length_enlist h c reaction), htouches.calls,
    call_setNotify (h := ((enlist c reaction).run h).2) hs.kind hs.unclaimed.loose.1 hset,
    htouches.orderly_of_none (ho.enlist hs.unclaimed)⟩

/-- If a pending call was made, its functions have been registered. -/
theorem exists_of_register_ok {reaction : Reaction}
    (hreg : (Pending.register c reaction).run.run h = (.ok p, h')) :
    p = h.pendings.length ∧ ∃ h₁, (setNotify c ⟨true, true, .slot p⟩).run
        ((enlist c reaction).run h).2 = (true, h₁) ∧
      h' = ((modifyPending p fun pending => { pending with holding := true }).run h₁).2 := by
  rw [run_register, run_enroll] at hreg
  rcases hset : (setNotify c ⟨true, true, .slot h.pendings.length⟩).run
    ((enlist c reaction).run h).2 with ⟨_ | _, h₁⟩
  · rw [hset] at hreg
    cases hreg
  · rw [hset] at hreg
    obtain ⟨hp, rfl⟩ := Prod.mk.inj hreg
    obtain rfl : h.pendings.length = p := by simpa using hp
    exact ⟨rfl, h₁, hset, rfl⟩

/-- A pending call waits for its reply if that has not come in before it was made. -/
theorem Sent.waiting (hs : h.Sent c m) (ho : h.Orderly)
    (hreg : (Pending.register c (.handler id actions)).run.run h = (.ok p, h'))
    (hcompleted : (h.call c).completed = false) : Waiting h' p c m id actions := by
  obtain ⟨rfl, h₁, hset, rfl⟩ := exists_of_register_ok hreg
  obtain ⟨hpending, hlen, -, hcall, -⟩ := hs.registered ho hset
  have hcall' : ((modifyPending h.pendings.length fun pending =>
      { pending with holding := true }).run h₁).2.call c = h₁.call c := rfl
  have hlt : h.pendings.length < h₁.pendings.length := hlen ▸ Nat.lt_succ_self _
  refine ⟨Nat.lt_of_lt_of_eq hlt (List.length_modify ..).symm, ?_, ?_, ?_, ?_, ?_, ?_, ?_⟩
  · rw [pending_modifyPending, if_pos ⟨rfl, hlt⟩, hpending]
  all_goals rw [hcall', hcall]
  · exact hs.kind
  · exact hcompleted
  · exact hs.cancelled
  · exact hs.attached
  · exact hs.reply

end Host

/-! ## The reply comes in -/

/-- The handler of the pending call has been started once, on the reply. -/
def Host.Served (h : Host) (p : PendingId) (id : String) (m : MessageId) : Prop :=
  h.trace.countP (Event.isStartOf p) = 1 ∧ h.Started p id m

variable {run : Reacting}

/-- What happens after a handler was started does not undo it. -/
theorem Host.Orderly.started_complete (hrun : ∀ w n actions, Moves Follows (run w n actions))
    (ho : h.Orderly) (hc : c < h.calls.length)
    (hs : ((Host.opening c).run h).2.Started p id m) :
    ((complete run c).run h).2.Started p id m := by
  have ho' : ((Host.opening c).run h).2.Orderly := (Act.opening hc).orderly ho
  rw [complete_eq, StateT.run_bind]
  exact hs.mono (Acts.grows (follows_closing hrun _ _ ho') ho')

theorem run_block (hholding : (h.pending p).holding = true) :
    ((Pending.block run p).run.run h).2 = ((do
      blockCall run (h.pending p).call
      modify fun h => { h with waiting := h.waiting.tail }
      letGo (.pending p) : StateM Host Unit).run { h with waiting := p :: h.waiting }).2 := by
  have hopen : (Pending.openCall p).run.run h = (.ok (h.pending p).call, h) := by
    change (if (h.pending p).holding then pure (h.pending p).call
      else throw .callClosed : Session CallId).run.run h = _
    rw [hholding]
    rfl
  rw [Pending.block, Session.run_bind, hopen]
  rfl

/-- Waiting for the reply of a waiting pending call has the handler started on it. -/
theorem Host.Waiting.started_block (hrun : ∀ w n actions, Moves Follows (run w n actions))
    (hw : Waiting h p c m id actions) (ho : h.Orderly) :
    ((Pending.block run p).run.run h).2.Started p id m := by
  have hwait : Acts h { h with waiting := p :: h.waiting } := .single (.wait _)
  have hcalm : Moves Calm (record (.blocked c)) := calm_record trivial
  have hblocked : Acts h ((record (.blocked c)).run { h with waiting := p :: h.waiting }).2 :=
    hwait.tail (.calm (hcalm _))
  have hw' : Waiting ((record (.blocked c)).run { h with waiting := p :: h.waiting }).2 p c m id
      actions := hw.of_same (Nat.le_refl _) rfl rfl
  have ho' := hblocked.orderly ho
  have hlt : c < h.calls.length := hw.call_eq ▸ ho.owned p hw.exists_pending
  have hcomplete : Acts _ _ := acts_complete hrun ho' hlt
  have hlast : Moves Follows (do
      modify fun h => { h with waiting := h.waiting.tail }
      letGo (.pending p) : StateM Host Unit) := by
    have htail : Moves Follows (modify fun h : Host => { h with waiting := h.waiting.tail }) :=
      fun _ => (Act.wait _).follows
    exact htail.bind fun _ => moves_letGo (.pending p)
  rw [run_block (by rw [hw.pending]), hw.call_eq]
  exact (ho'.started_complete hrun hlt (hw'.started_opening ho')).mono
    (Acts.grows (hlast _ (hcomplete.orderly ho')) (hcomplete.orderly ho'))

/-! ## The reply has come in already -/

/-- The call of the pending call was completed while nothing was registered with it. -/
theorem Host.Orderly.not_rings (ho : h.Orderly) (hkind : (h.call (h.pending p).call).kind = .native)
    (hcompleted : (h.call (h.pending p).call).completed = true) (c : CallId) : ¬ h.Rings c p := by
  intro hr
  obtain ⟨-, rfl⟩ := ho.registered c p hr.data
  have hready := hr.ready
  unfold Call.isReady at hready
  rw [hkind, hcompleted] at hready
  cases hready

/-- A native call that has completed does not have a handler started any more. -/
theorem Acts.silent_of_completed (ha : Acts h h') (ho : h.Orderly) (hp : p < h.pendings.length)
    (hkind : (h.call (h.pending p).call).kind = .native)
    (hcompleted : (h.call (h.pending p).call).completed = true) : Silent p h h' := by
  induction ha with
  | refl => exact refl_of (Silent p) h
  | tail hs ha ih =>
      have ho' := Acts.orderly hs ho
      have hgrows := Acts.grows hs ho
      have howner := hgrows.owner p hp
      have hkind' := (hgrows.kind _ (ho.owned p hp)).trans hkind
      have hcompleted' := hgrows.completed _ hcompleted
      rw [← howner] at hkind' hcompleted'
      exact trans_of (Silent p) ih (ha.silent ho' (.inr (ho'.not_rings hkind' hcompleted')))

theorem Host.Orderly.not_started_of_register {reaction : Reaction} (ho : h.Orderly)
    (hc : h.IsUnclaimed c) (hreg : (Pending.register c reaction).run.run h = (.ok p, h')) :
    h'.trace.countP (Event.isStartOf p) = 0 := by
  obtain ⟨rfl, -⟩ := exists_of_register_ok hreg
  have hsilent : Silent h.pendings.length h ((Pending.register c reaction).run.run h).2 := by
    rw [run_register]
    exact trans_of (Silent h.pendings.length) (silent_enlist c reaction h)
      (((ho.enlisted hc reaction).touches_enroll (ho.enlist hc)).silent _)
  rw [hreg] at hsilent
  obtain ⟨es, htrace, hno⟩ := hsilent
  apply List.countP_eq_zero.mpr
  intro e he hstart
  obtain ⟨id, w, rfl⟩ := Event.exists_of_isStartOf hstart
  rw [htrace] at he
  rcases List.mem_append.mp he with he | he
  · obtain ⟨before, after, hsplit⟩ := List.append_of_mem he
    exact Nat.lt_irrefl _ (ho.lt_of_started hsplit)
  · exact hno id w he

theorem Host.Silent.countP_eq (hs : Silent p h h') :
    h'.trace.countP (Event.isStartOf p) = h.trace.countP (Event.isStartOf p) := by
  obtain ⟨es, htrace, hno⟩ := hs
  have hnone : es.countP (Event.isStartOf p) = 0 := by
    apply List.countP_eq_zero.mpr
    intro e he hstart
    obtain ⟨id, w, rfl⟩ := Event.exists_of_isStartOf hstart
    exact hno id w he
  rw [htrace, List.countP_append, hnone, Nat.add_zero]

/-- If the reply comes in before the functions are registered, the handler is never started. -/
theorem Host.Sent.never_started {reaction : Reaction} {h₁ h₂ : Host} (hs : h.Sent c m)
    (ho : h.Orderly) (hreg : (Pending.register c reaction).run.run h = (.ok p, h₁))
    (hcompleted : (h.call c).completed = true) (ha : Acts h₁ h₂) :
    h₂.trace.countP (Event.isStartOf p) = 0 := by
  have hnone := ho.not_started_of_register hs.unclaimed hreg
  have hact : Act h ((Pending.register c reaction).run.run h).2 := .register hs.unclaimed reaction
  rw [hreg] at hact
  obtain ⟨rfl, h', hset, rfl⟩ := exists_of_register_ok hreg
  obtain ⟨hpending, hlen, -, hcall, -⟩ := hs.registered ho hset
  have hlt : h.pendings.length < h'.pendings.length := hlen ▸ Nat.lt_succ_self _
  have howner : (((modifyPending h.pendings.length fun pending =>
      { pending with holding := true }).run h').2.pending h.pendings.length).call = c := by
    rw [pending_modifyPending, if_pos ⟨rfl, hlt⟩, hpending]
  have hlt' : h.pendings.length < ((modifyPending h.pendings.length fun pending =>
      { pending with holding := true }).run h').2.pendings.length :=
    Nat.lt_of_lt_of_eq hlt (List.length_modify ..).symm
  have hgrows := hact.grows ho
  have hkind := (hgrows.kind c hs.unclaimed.loose.1).trans hs.kind
  have hcompleted' := hgrows.completed c hcompleted
  rw [← howner] at hkind hcompleted'
  exact (ha.silent_of_completed (hact.orderly ho) hlt' hkind hcompleted').countP_eq.trans hnone

/-! ## Whether the handler is started -/

/-- The reply comes in after the functions have been registered but before the pending call
has been handed out. -/
theorem Host.Sent.served_inside {h₁ : Host}
    (hrun : ∀ w n actions, Moves Follows (run w n actions)) (hs : h.Sent c m) (ho : h.Orderly)
    (hcompleted : (h.call c).completed = false)
    (hset : (setNotify c ⟨true, true, .slot h.pendings.length⟩).run
      ((enlist c (.handler id actions)).run h).2 = (true, h₁)) :
    ((do
      discard (complete run c)
      modifyPending h.pendings.length fun pending => { pending with holding := true }
      : StateM Host Unit).run h₁).2.Served h.pendings.length id m := by
  obtain ⟨hpending, hlen, hle, hcall, ho'⟩ := hs.registered ho hset
  have hlt : c < h₁.calls.length := Nat.lt_of_lt_of_le hs.unclaimed.loose.1 hle
  have hrings : h₁.Rings c h.pendings.length := by
    refine ⟨?_, by rw [hcall], by rw [hcall]⟩
    unfold Call.isReady
    rw [hcall]
    simp only [hs.kind, hcompleted, hs.cancelled]
    rfl
  have hopening := started_opening hrings hlt (hlen ▸ Nat.lt_succ_self _)
    (by rw [hcall]; exact hs.reply) (by rw [hpending])
  have hstarted := ho'.started_complete hrun hlt hopening
  have hdone : ((complete run c).run h₁).2.Orderly := (acts_complete hrun ho' hlt).orderly ho'
  have hhold : Touches (· = h.pendings.length) (fun _ => False) ((complete run c).run h₁).2 _ :=
    touches_hold rfl
  have hheld := hstarted.mono hhold.grows
  exact ⟨hheld.countP_eq_one (hhold.orderly hdone fun _ _ => .inr rfl), hheld⟩

/-- A pending call is made for a call that has been sent.  If the reply has not come in by
then, the handler is started on it exactly once, wherever in all that follows the reply comes
in, unless the pending call has been given up before; and waiting for the reply does not end
before that.  If the reply has come in by then, the handler is never started. -/
theorem Host.Sent.handed_over {v : Validator} {f : Failures} {h₁ : Host}
    (hreach : Acts (.start v f) h) (hs : h.Sent c m)
    (hreg : (Pending.register c (.handler id actions)).run.run h = (.ok p, h₁)) :
    ((h.call c).completed = false →
      (∀ n h', (setNotify c ⟨true, true, .slot p⟩).run
          ((enlist c (.handler id actions)).run h).2 = (true, h') →
        ((do
          discard (complete (reactWithin n) c)
          modifyPending p fun pending => { pending with holding := true }
          : StateM Host Unit).run h').2.Served p id m) ∧
      ∀ h₂, Acts h₁ h₂ → ¬ h₂.GivenUp p c →
        ((h₂.call c).completed = true → h₂.Served p id m) ∧
          ∀ n, ((Pending.block (reactWithin n) p).run.run h₂).2.Served p id m) ∧
    ((h.call c).completed = true →
      ∀ h₂, Acts h₁ h₂ → h₂.trace.countP (Event.isStartOf p) = 0) := by
  have ho := hreach.orderly (orderly_start v f)
  constructor
  · intro hcompleted
    constructor
    · intro n h' hset
      obtain ⟨rfl, -⟩ := exists_of_register_ok hreg
      exact hs.served_inside (follows_reactWithin n) ho hcompleted hset
    · intro h₂ ha hkept
      have hact : Act h ((Pending.register c (.handler id actions)).run.run h).2 :=
        .register hs.unclaimed _
      rw [hreg] at hact
      have ho₁ := hact.orderly ho
      have ho₂ := ha.orderly ho₁
      have hblock : ∀ n, Acts h₂ ((Pending.block (reactWithin n) p).run.run h₂).2 :=
        fun n => follows_block (follows_reactWithin n) p h₂ ho₂
      rcases ha.fate ho₁ (hs.waiting ho hreg hcompleted) with hw | hg | hstarted
      · constructor
        · intro hdone
          exact absurd (hw.completed.symm.trans hdone) Bool.false_ne_true
        · intro n
          have hstarted := hw.started_block (follows_reactWithin n) ho₂
          exact ⟨hstarted.countP_eq_one ((hblock n).orderly ho₂), hstarted⟩
      · exact absurd hg hkept
      · constructor
        · intro _
          exact ⟨hstarted.countP_eq_one ho₂, hstarted⟩
        · intro n
          have hstarted' := hstarted.mono ((hblock n).grows ho₂)
          exact ⟨hstarted'.countP_eq_one ((hblock n).orderly ho₂), hstarted'⟩
  · intro hcompleted h₂ ha
    exact hs.never_started ho hreg hcompleted ha

end

/-- The state in which one call has been sent, which will have a reply. -/
def Host.sentOnce : Host :=
  ((createCall (.start .native (some 0) true)).run (.start (.ofRefusals [] []) [])).2

theorem acts_sentOnce : Acts (.start (.ofRefusals [] []) []) sentOnce :=
  .single (.createCall .native (some 0) true)

theorem sent_sentOnce : sentOnce.Sent 0 0 :=
  ⟨(orderly_start _ _).isUnclaimed_createCall _, rfl, rfl, rfl, rfl⟩

theorem sent_opening_sentOnce : ((opening 0).run sentOnce).2.Sent 0 0 :=
  (sent_sentOnce.opening (acts_sentOnce.orderly (orderly_start _ _))).1

/-- The handler is started on the reply if that comes in after the pending call was made.  If
the reply has come in before, waiting for it succeeds but does not have the handler started. -/
theorem Host.handed_over_sentOnce :
    ((opening 0).run ((Pending.register 0 (.handler "h" [])).run.run sentOnce).2).2.Served
        0 "h" 0 ∧
      ((Pending.block (reactWithin 1) 0).run.run ((Pending.register 0 (.handler "h" [])).run.run
        ((opening 0).run sentOnce).2).2).1 = .ok () ∧
      ((Pending.block (reactWithin 1) 0).run.run ((Pending.register 0 (.handler "h" [])).run.run
        ((opening 0).run sentOnce).2).2).2.trace.countP (Event.isStartOf 0) = 0 := by
  have hreg : (Pending.register 0 (.handler "h" [])).run.run sentOnce =
      (.ok 0, ((Pending.register 0 (.handler "h" [])).run.run sentOnce).2) :=
    Prod.ext rfl rfl
  have hreg' : (Pending.register 0 (.handler "h" [])).run.run ((opening 0).run sentOnce).2 =
      (.ok 0, ((Pending.register 0 (.handler "h" [])).run.run ((opening 0).run sentOnce).2).2) :=
    Prod.ext rfl rfl
  have hopened : Acts (.start (.ofRefusals [] []) []) ((opening 0).run sentOnce).2 :=
    acts_sentOnce.tail (.opening (by decide +kernel))
  refine ⟨?_, rfl, ?_⟩
  · have hact : Act ((Pending.register 0 (.handler "h" [])).run.run sentOnce).2 ((opening 0).run
        ((Pending.register 0 (.handler "h" [])).run.run sentOnce).2).2 :=
      .opening (by decide +kernel)
    have htrace : ((opening 0).run
        ((Pending.register 0 (.handler "h" [])).run.run sentOnce).2).2.trace =
        [.notifySet 0 true, .completed 0, .notified 0 (.slot 0), .locked, .stolen 0 0,
          .adopted (.message 0), .started 0 "h" 0] := rfl
    refine (((Sent.handed_over acts_sentOnce sent_sentOnce hreg).1 rfl).2 _ (.single hact) ?_).1 rfl
    rintro ⟨before, after, hsplit, -, e, he, hreleases⟩
    have hmem := List.mem_append_left after he
    rw [← hsplit, htrace] at hmem
    simp only [List.mem_cons, List.not_mem_nil, or_false] at hmem
    rcases hmem with rfl | rfl | rfl | rfl | rfl | rfl | rfl <;> exact hreleases
  · have hregistered : Orderly ((Pending.register 0 (.handler "h" [])).run.run
        ((opening 0).run sentOnce).2).2 :=
      (hopened.orderly (orderly_start _ _)).register sent_opening_sentOnce.unclaimed _
    exact (Sent.handed_over hopened sent_opening_sentOnce hreg').2 rfl _
      (follows_block (follows_reactWithin 1) 0 _ hregistered)

end DBusHost
