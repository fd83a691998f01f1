import DBusHost.Proofs.Session.Requests
import DBusHost.Proofs.Session.Parting

/-!
# A call is given up once

A pending call holds its call until it is closed.  Closing takes the notify function away, which
has the free function called, and gives the call up.  Whatever comes after that, be it the rest
of the notification in which it happened, nothing is done with the call any more.
-/

namespace DBusHost

open Host

section

variable {h h' : Host} {p : PendingId} {c : CallId}

namespace Host

/-- The pending call holds its call, with which its functions are registered. -/
structure Holds (h : Host) (p : PendingId) (c : CallId) : Prop where
  exists_pending : p < h.pendings.length
  title : (h.pending p).title = (c, true)
  terms : (h.call c).terms =
    (.native, true, ⟨true, true, .slot p⟩, ⟨true, true, .slot p⟩)
  unreleased : ∀ e ∈ h.trace, e ≠ .unreferenced c

namespace Holds

theorem owner (hh : Holds h p c) : (h.pending p).call = c := congrArg Prod.fst hh.title

theorem holding (hh : Holds h p c) : (h.pending p).holding = true := congrArg Prod.snd hh.title

theorem kind (hh : Holds h p c) : (h.call c).kind = .native := congrArg Prod.fst hh.terms

theorem attached (hh : Holds h p c) : (h.call c).attached = true :=
  congrArg (fun x => x.2.1) hh.terms

theorem registration (hh : Holds h p c) : (h.call c).registration = ⟨true, true, .slot p⟩ :=
  congrArg (fun x => x.2.2.1) hh.terms

theorem kept (hh : Holds h p c) : (h.call c).kept = ⟨true, true, .slot p⟩ :=
  congrArg (fun x => x.2.2.2) hh.terms

theorem exists_call (hh : Holds h p c) (ho : h.Orderly) : c < h.calls.length :=
  hh.owner ▸ ho.owned p hh.exists_pending

end Holds

end Host

/-! ## Acts on a call that is held -/

/-- A pending call holds its call until it is closed. -/
theorem Host.Holds.act (hh : Holds h p c) (ho : h.Orderly) (ha : Act h h') :
    Holds h' p c ∨ h' = ((Pending.close p).run h).2 := by
  have hlt := Nat.lt_of_lt_of_le hh.exists_pending (ha.grows ho).pendings
  have howner := hh.owner
  have hunreleased : Records (· ≠ .unreferenced c) h h' →
      ∀ e ∈ h'.trace, e ≠ .unreferenced c := by
    rintro ⟨es, htrace, hes⟩ e he
    rw [htrace] at he
    rcases List.mem_append.mp he with he | he
    · exact hh.unreleased e he
    · exact hes e he
  have hupheld : Upholds NeverGivesUp h h' → Holds h' p c := by
    intro hu
    obtain ⟨es, htrace, hes⟩ := hu.trace
    exact ⟨hlt, (hu.pending p).trans hh.title, (hu.call c).trans hh.terms,
      hunreleased ⟨es, htrace, fun e he => hes e he c⟩⟩
  rcases ha.bypasses_or_concerns ho hh.exists_pending with hb | hconcerns
  · have hcall := hb.call
    rw [howner] at hcall
    refine .inl ⟨hlt, (congrArg Pending.title hb.pending).trans hh.title,
      (congrArg Call.terms hcall).trans hh.terms, ?_⟩
    exact hunreleased (Avoids.ne_unreferenced (howner ▸ hb.avoids))
  · cases hconcerns with
    | cancel => exact .inl (hupheld (upholds_cancel neverGivesUp_of_isOn fun _ => trivial))
    | close => exact .inr rfl
    | free => exact .inl (hupheld (upholds_freeData neverGivesUp_of_isOn trivial _ h))
    | opening => exact .inl (hupheld (upholds_opening neverGivesUp_of_isOn trivial h))

/-- Acts leave the call held, or the pending call has been closed on the way. -/
theorem Acts.holds_or_closed (ha : Acts h h') (ho : h.Orderly) (hh : Holds h p c) :
    Holds h' p c ∨
      ∃ k, Acts h k ∧ Holds k p c ∧ Acts ((Pending.close p).run k).2 h' := by
  induction ha with
  | refl => exact .inl hh
  | @tail k h' hs ha ih =>
      rcases ih with hheld | ⟨k', hs', hheld, hrest⟩
      · rcases hheld.act (Acts.orderly hs ho) ha with hheld' | rfl
        · exact .inl hheld'
        · exact .inr ⟨k, hs, hheld, .refl⟩
      · exact .inr ⟨k', hs', hheld, hrest.tail ha⟩

/-! ## Closing -/

namespace Host

/-- Closing takes the functions away before it gives the call up. -/
theorem Holds.run_close (hh : Holds h p c) : ((Pending.close p).run h).2 = ((do
    discard (exchange c .none)
    giveUp c
    discard (takeSlot p) : StateM Host Unit).run
      ((modifyPending p fun pending => { pending with holding := false }).run h).2).2 := by
  let h₁ := ((modifyPending p fun pending => { pending with holding := false }).run h).2
  have hgive : (unreference c).run h₁ = _ :=
    unanswered.unreference_attached hh.kind hh.attached
  have hkept : (h₁.call c).kept = ⟨true, true, .slot p⟩ := hh.kept
  rw [hkept] at hgive
  have hclose : ((Pending.close p).run h).2 =
      ((takeSlot p).run ((unreference c).run h₁).2).2 := by
    rw [Pending.close, StateT.run_bind, StateT.run_get, pure_bind]
    simp only [hh.holding, hh.owner, if_true]
    rfl
  rw [hclose, hgive]
  rfl

/-- If the library does not refuse, the functions of a pending call are taken away. -/
theorem run_exchange_none (hr : (h.call c).registration = ⟨true, true, .slot p⟩)
    (hok : ((succeeds .setNotify).run h).1 = true) :
    ((exchange c .none).run h).2 = ((do
      swap c .none
      record (.freed c (.slot p))
      discard (takeSlot p) : StateM Host Unit).run h).2 := by
  rw [Callbacks.run_exchange, if_pos hok, Callbacks.run_freeData, hr]
  rfl

theorem holding_takeSlot (p : PendingId) (h : Host) :
    (((takeSlot p).run h).2.pending p).holding = (h.pending p).holding :=
  congrArg Prod.snd ((upholds_takeSlot (E := fun _ => True) p h).pending p)

theorem holding_modifyPending (p : PendingId) (h : Host) :
    (((modifyPending p fun pending => { pending with holding := false }).run h).2.pending
      p).holding = false := by
  rw [pending_modifyPending]
  split
  · rfl
  · next hp =>
      rw [pending_of_length_le (by simpa using hp)]
      rfl

/-- What is true of a call that has been given up, as soon as the handle is let go of. -/
theorem Holds.parted (hh : Holds h p c) (ho : h.Orderly)
    (hholding : (((Pending.close p).run h).2.pending p).holding = false)
    (hattached : (((Pending.close p).run h).2.call c).attached = false) :
    Parted ((Pending.close p).run h).2 p c := by
  have htouches := (ho.owns hh.exists_pending).touches_close (p := p) rfl fun _ => rfl
  refine ⟨Nat.lt_of_lt_of_eq hh.exists_pending htouches.size.symm, ?_,
    (htouches.kind c (hh.exists_call ho)).trans hh.kind, hattached⟩
  rw [← hh.owner, ← htouches.owner p, ← hholding, ← slot_close h p]

/-- If the library does not refuse, the functions are taken away first, which has the free
function called, and then the call is given up. -/
theorem Holds.close_of_succeeds (hh : Holds h p c) (ho : h.Orderly)
    (hok : ((succeeds .setNotify).run h).1 = true) :
    Detached ((Pending.close p).run h).2 p c ∧ ((Pending.close p).run h).2.trace =
      h.trace ++ [.notifySet c false, .freed c (.slot p), .unreferenced c] := by
  have hc := hh.exists_call ho
  let h₁ := ((modifyPending p fun pending => { pending with holding := false }).run h).2
  have hexchange : ((exchange c .none).run h₁).2 = _ := run_exchange_none hh.registration hok
  have hclose : ((Pending.close p).run h).2 = ((do
      giveUp c
      discard (takeSlot p) : StateM Host Unit).run ((exchange c .none).run h₁).2).2 :=
    hh.run_close
  rw [hexchange] at hclose
  have hlast : (((Pending.close p).run h).2.call c) =
      { h.call c with registration := .none, attached := false } := by
    have hlt : c < ((modifyCall c fun call =>
        { call with registration := .none }).run h).2.calls.length :=
      Nat.lt_of_lt_of_eq hc (List.length_modify ..).symm
    rw [hclose]
    refine (call_modifyCall_self hlt fun call => { call with attached := false }).trans ?_
    rw [call_modifyCall_self hc]
  have hholding : (((Pending.close p).run h).2.pending p).holding = false := by
    rw [hclose]
    refine (holding_takeSlot p _).trans ((holding_takeSlot p _).trans ?_)
    exact holding_modifyPending p h
  refine ⟨⟨hh.parted ho hholding (by rw [hlast]), by rw [hlast]⟩, ?_⟩
  rw [hclose]
  change h.trace ++ [.notifySet c false] ++ [.freed c (.slot p)] ++ [.unreferenced c] = _
  simp

/-- If the library refuses, the call is given up all the same. -/
theorem Holds.close_of_fails (hh : Holds h p c) (ho : h.Orderly)
    (hno : ((succeeds .setNotify).run h).1 = false) :
    Parted ((Pending.close p).run h).2 p c ∧
      ((Pending.close p).run h).2.trace = h.trace ++ [.unreferenced c] := by
  have hc := hh.exists_call ho
  let h₁ := ((modifyPending p fun pending => { pending with holding := false }).run h).2
  have hexchange : (exchange c .none).run h₁ = (false, ((succeeds .setNotify).run h₁).2) :=
    (unanswered.run_exchange .none c h₁).trans (if_neg (Bool.eq_false_iff.mp hno))
  have hclose : ((Pending.close p).run h).2 = ((do
      giveUp c
      discard (takeSlot p) : StateM Host Unit).run ((exchange c .none).run h₁).2).2 :=
    hh.run_close
  rw [hexchange] at hclose
  have hattached : (((Pending.close p).run h).2.call c).attached = false := by
    rw [hclose]
    exact congrArg Call.attached
      (call_modifyCall_self hc fun call => { call with attached := false })
  have hholding : (((Pending.close p).run h).2.pending p).holding = false := by
    rw [hclose]
    exact (holding_takeSlot p _).trans (holding_modifyPending p h)
  refine ⟨hh.parted ho hholding hattached, ?_⟩
  rw [hclose]
  rfl

end Host

/-! ## From registering on -/

/-- The event gives the call up. -/
def Event.isReleaseOf (c : CallId) : Event → Bool
  | .unreferenced d => d = c
  | _ => false

theorem Event.countP_isReleaseOf_eq_zero {es : List Event} (hes : ∀ e ∈ es, e ≠ .unreferenced c) :
    es.countP (Event.isReleaseOf c) = 0 := by
  apply List.countP_eq_zero.mpr
  intro e he hrelease
  cases e with
  | unreferenced d =>
      obtain rfl : d = c := by simpa [Event.isReleaseOf] using hrelease
      exact hes _ he rfl
  | _ => cases hrelease

namespace Host

/-- A pending call that has been made holds its call. -/
theorem Orderly.holds_of_register {reaction : Reaction} {h₁ : Host} (ho : h.Orderly)
    (hc : h.IsUnclaimed c) (hout : h.Outstanding c)
    (hreg : (Pending.register c reaction).run.run h = (.ok p, h₁)) : Holds h₁ p c := by
  obtain ⟨rfl, k, hset, rfl⟩ := exists_of_register_ok hreg
  have htouches : Touches (fun _ => False) (· = c) ((Host.enlist c reaction).run h).2
      ((setNotify c ⟨true, true, .slot h.pendings.length⟩).run
        ((Host.enlist c reaction).run h).2).2 := (ho.enlisted hc reaction).touches
  obtain ⟨es, htrace, hes⟩ := records_setNotify neverGivesUp_of_isOn (c := c) trivial
    ⟨true, true, .slot h.pendings.length⟩ ((Host.enlist c reaction).run h).2
  have hcall := call_setNotify (h := ((Host.enlist c reaction).run h).2) hout.kind hc.loose.1 hset
  rw [hset] at htouches htrace
  have hlt : h.pendings.length < k.pendings.length :=
    Nat.lt_of_lt_of_eq (Nat.lt_succ_self _)
      (htouches.size.trans (length_enlist h c reaction)).symm
  have hpending : k.pending h.pendings.length = ⟨c, false, reaction⟩ :=
    (htouches.pending _ not_false).trans pending_enlist_self
  refine ⟨Nat.lt_of_lt_of_eq hlt (List.length_modify ..).symm, ?_, ?_, ?_⟩
  · rw [pending_modifyPending, if_pos ⟨rfl, hlt⟩, hpending]
    rfl
  · change (k.call c).terms = _
    rw [hcall]
    exact Prod.ext hout.kind (Prod.ext hout.attached rfl)
  · intro e he
    change e ∈ k.trace at he
    rw [htrace] at he
    rcases List.mem_append.mp he with he | he
    · exact (hc.unused e he).2
    · exact hes e he c

theorem Holds.countP_eq_zero (hh : Holds h p c) : h.trace.countP (Event.isReleaseOf c) = 0 :=
  Event.countP_isReleaseOf_eq_zero hh.unreleased

/-- Closing gives the call up once. -/
theorem Holds.close (hh : Holds h p c) (ho : h.Orderly) :
    Parted ((Pending.close p).run h).2 p c ∧
      ((Pending.close p).run h).2.trace.countP (Event.isReleaseOf c) = 1 := by
  cases hok : ((succeeds .setNotify).run h).1 with
  | true =>
      obtain ⟨hdetached, htrace⟩ := hh.close_of_succeeds ho hok
      refine ⟨hdetached.toParted, ?_⟩
      rw [htrace, List.countP_append, hh.countP_eq_zero]
      simp [Event.isReleaseOf]
  | false =>
      obtain ⟨hparted, htrace⟩ := hh.close_of_fails ho hok
      refine ⟨hparted, ?_⟩
      rw [htrace, List.countP_append, hh.countP_eq_zero]
      simp [Event.isReleaseOf]

theorem Records.countP_eq (hr : Records (· ≠ .unreferenced c) h h') :
    h'.trace.countP (Event.isReleaseOf c) = h.trace.countP (Event.isReleaseOf c) := by
  obtain ⟨es, htrace, hes⟩ := hr
  rw [htrace, List.countP_append, Event.countP_isReleaseOf_eq_zero hes, Nat.add_zero]

/-- What holds of a pending call and its call in a state, and of all that may follow. -/
structure ReleasesOnce (h : Host) (p : PendingId) (c : CallId) : Prop where
  /-- The call has been given up once if the pending call has been closed, and not before. -/
  once : h.trace.countP (Event.isReleaseOf c) = if (h.pending p).holding then 0 else 1
  closed : (((Pending.close p).run h).2.pending p).holding = false
  /-- A pending call that nothing else refers to is closed as it is dropped. -/
  dropped : (∀ e ∈ h.names, e.2 ≠ .pending p) → p ∉ h.waiting →
    (letGo (.pending p)).run h = (Pending.close p).run h
  /-- If the library does not refuse, closing takes the notify function away, which has the free
  function called, before it gives the call up.  From then on nothing is done with the call, be it
  by a reply that comes in later or by what is left of a notification in progress, and no step
  and no handler waits for it. -/
  released : (h.pending p).holding = true → ((succeeds .setNotify).run h).1 = true →
    ((Pending.close p).run h).2.trace =
        h.trace ++ [.notifySet c false, .freed c (.slot p), .unreferenced c] ∧
      ∀ h', Acts ((Pending.close p).run h).2 h' →
        Avoids c ((Pending.close p).run h).2 h' ∧
        ∀ n s, Records (fun e => e.isUseOf c = false ∧ e ≠ .blocked c) h'
          ((Step.perform (reactWithin n) s).run.run h').2
  /-- A pending call that has been closed can neither be waited for nor asked.  Cancelling and
  closing it does nothing. -/
  refused : (h.pending p).holding = false →
    (∀ run, (Pending.block run p).run.run h = (.error .callClosed, h)) ∧
      (Pending.completed p).run.run h = (.error .callClosed, h) ∧
      (Pending.cancel p).run h = ((), h) ∧ (Pending.close p).run h = ((), h)

theorem Holds.releasesOnce (hh : Holds h p c) (ho : h.Orderly) : h.ReleasesOnce p c := by
  have hholding := hh.holding
  constructor
  case once => rw [hh.countP_eq_zero, if_pos hholding]
  case closed => rw [(hh.close ho).1.pending]
  case dropped => exact letGo_eq_close
  case released =>
    intro _ hok
    obtain ⟨hdetached, htrace⟩ := hh.close_of_succeeds ho hok
    have hclosed : ((Pending.close p).run h).2.Orderly := (Act.close p).orderly ho
    refine ⟨htrace, fun h' ha => ?_⟩
    obtain ⟨hdetached', havoids⟩ := ha.detached hclosed hdetached
    exact ⟨havoids, hdetached'.step (ha.orderly hclosed)⟩
  case refused =>
    intro hno
    exact absurd (hholding.symm.trans hno) Bool.true_eq_false.mp

theorem Parted.releasesOnce (hh : Parted h p c)
    (honce : h.trace.countP (Event.isReleaseOf c) = 1) : h.ReleasesOnce p c := by
  have hholding : (h.pending p).holding = false := by rw [hh.pending]
  constructor
  case once => rw [honce, hholding]; rfl
  case closed => rw [hh.close, hholding]
  case dropped => exact letGo_eq_close
  case released => exact fun hheld => absurd (hholding.symm.trans hheld) Bool.false_ne_true
  case refused => exact fun _ => ⟨hh.block, hh.completed, hh.cancel, hh.close⟩

/-- Whatever acts follow on registering, the pending call holds the call until it is closed, and it
gives the call up once. -/
theorem Orderly.releasesOnce_of_register {reaction : Reaction} {h₁ h₂ : Host} (ho : h.Orderly)
    (hc : h.IsUnclaimed c) (hout : h.Outstanding c)
    (hreg : (Pending.register c reaction).run.run h = (.ok p, h₁)) (ha : Acts h₁ h₂) :
    h₂.ReleasesOnce p c ∧
      ((h₂.pending p).holding = true ∨ ∃ k, Acts h₁ k ∧ (k.pending p).holding = true ∧
        Acts ((Pending.close p).run k).2 h₂) ∧
      ∀ n s, Acts h₂ ((Step.perform (reactWithin n) s).run.run h₂).2 := by
  have hact : Act h ((Pending.register c reaction).run.run h).2 := .register hc reaction
  rw [hreg] at hact
  have ho₁ := hact.orderly ho
  have ho₂ := ha.orderly ho₁
  have hsteps : ∀ n s, Acts h₂ ((Step.perform (reactWithin n) s).run.run h₂).2 :=
    fun n s => follows_step (follows_reactWithin n) s h₂ ho₂
  rcases ha.holds_or_closed ho₁ (ho.holds_of_register hc hout hreg) with
    hheld | ⟨k, hk, hheld, hrest⟩
  · exact ⟨hheld.releasesOnce ho₂, .inl hheld.holding, hsteps⟩
  · have hok := hk.orderly ho₁
    obtain ⟨hparted, honce⟩ := hheld.close hok
    obtain ⟨hparted', hrecords⟩ := hrest.parted ((Act.close p).orderly hok) hparted
    exact ⟨hparted'.releasesOnce (hrecords.countP_eq.trans honce),
      .inr ⟨k, hk, hheld.holding, hrest⟩, hsteps⟩

end Host

/-- A request makes a pending call for the call that the native library has handed out.  Whatever
sequence of acts follows, be they those of steps or of handlers, the pending call holds the call
until it is closed, and it gives the call up once. -/
theorem Pending.released_once {v : Validator} {f : Failures} {name bus : String}
    {subject : Subject} {reaction : Reaction} {reply : Option Message} {timeout : Option Recipe}
    {k h₁ : Host} (hreach : Acts (.start v f) h)
    (hsent : (Session.solicit name bus subject reply timeout).run.run h = (.ok (some c), k))
    (hreg : (Pending.register c reaction).run.run k = (.ok p, h₁)) :
    Fault.callClosed.kind = .value ∧
      (∀ run, ∃ h',
        (Step.perform run (.request name bus subject reaction reply timeout)).run.run h =
          (.ok .done, h') ∧ Acts h₁ h') ∧
      ∀ h₂, Acts h₁ h₂ →
        h₂.ReleasesOnce p c ∧
        ((h₂.pending p).holding = true ∨ ∃ k, Acts h₁ k ∧ (k.pending p).holding = true ∧
          Acts ((Pending.close p).run k).2 h₂) ∧
        ∀ n s, Acts h₂ ((Step.perform (reactWithin n) s).run.run h₂).2 := by
  have ho := hreach.orderly (orderly_start v f)
  obtain ⟨hacts, hclaim⟩ := ho.solicit hsent
  have hok := hacts.orderly ho
  have hout := outstanding_of_solicit hsent
  refine ⟨rfl, fun run => ?_, fun h₂ ha => hok.releasesOnce_of_register hclaim hout hreg ha⟩
  have hact : Act k ((Pending.register c reaction).run.run k).2 := .register hclaim reaction
  rw [hreg] at hact
  have ho₁ := hact.orderly hok
  have hlt : c < h₁.calls.length := Nat.lt_of_lt_of_le hout.exists_call (hact.grows hok).calls
  have hnote : Acts h₁ _ := .single (.calm (calm_noteLine hlt name))
  refine ⟨_, ?_, hnote.trans ((hnote.orderly ho₁).acts_assign (t := .pending p) (by simp) name)⟩
  rw [run_request, hsent]
  dsimp only
  rw [Session.await, Session.run_bind, hreg]
  rfl

end

/-- The reply comes in, the handler closes the pending call it has been started for, and then the
notification goes on. -/
theorem Pending.released_once_sent :
    let k := ((Session.solicit "p" "bus" (.named "m") (some { kind := 2 }) none).run.run
      (Script.withConnection []).run.2).2
    let h₁ := ((Pending.register 0 (.handler "h" [])).run.run k).2
    let h₂ := ((opening 0).run h₁).2
    let h₃ := ((Pending.close 0).run h₂).2
    h₃.trace = h₂.trace ++ [.notifySet 0 false, .freed 0 (.slot 0), .unreferenced 0] ∧
      h₃.trace.countP (Event.isReleaseOf 0) = 1 ∧
      Avoids 0 h₃ (leave.run h₃).2 ∧
      (Pending.completed 0).run.run h₃ = (.error .callClosed, h₃) := by
  intro k h₁ h₂ h₃
  have hsent : (Session.solicit "p" "bus" (.named "m") (some { kind := 2 }) none).run.run
      (Script.withConnection []).run.2 = (.ok (some 0), k) := Prod.ext rfl rfl
  have hreg : (Pending.register 0 (.handler "h" [])).run.run k = (.ok 0, h₁) :=
    Prod.ext rfl rfl
  have hstarted : Acts h₁ h₂ := .single (.opening (by decide +kernel))
  have hclosed : Acts h₁ h₃ := hstarted.tail (.close 0)
  have hreleases := (Pending.released_once (Script.acts_run (.withConnection [])) hsent hreg).2.2
  have hholding : (h₂.pending 0).holding = true := by decide +kernel
  have hok : ((succeeds .setNotify).run h₂).1 = true := by decide +kernel
  have hlet : (h₃.pending 0).holding = false := by decide +kernel
  obtain ⟨htrace, hafter⟩ := (hreleases h₂ hstarted).1.released hholding hok
  have honce := (hreleases h₃ hclosed).1.once
  rw [hlet] at honce
  exact ⟨htrace, honce, (hafter _ (.single .leave)).1, ((hreleases h₃ hclosed).1.refused hlet).2.1⟩

end DBusHost
