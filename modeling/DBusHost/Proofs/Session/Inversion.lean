import DBusHost.Proofs.Session.Orderly

/-!
# What an act can do

In an orderly state an act either leaves all pending calls and their calls as they are, or
empties the slot of one of them, or makes a new one, or completes a call.
-/

namespace DBusHost

open Host

section

variable {P : PendingId → Prop} {C : CallId → Prop} {h h' : Host}

namespace Host

/-! ## Acts that have nothing to do with pending calls -/

theorem touches_create (r : Resource) : Touches P C h ((create r).run h).2 :=
  (touches_countBy r 1).trans (touches_plain trivial)

theorem touches_share (r : Resource) : Touches P C h ((share r).run h).2 :=
  (touches_countBy r 1).trans (touches_plain trivial)

theorem touches_leave : Touches P C h (leave.run h).2 :=
  (touches_unlock h).trans (touches_of_trace_eq rfl rfl rfl rfl rfl rfl)

/-- A wrapper that dies still is one of its object. -/
theorem touches_letGoWrapper (w : WrapperId) :
    Touches P C h ((letGoWrapper w).run h).2 := by
  rw [letGoWrapper, StateT.run_bind, StateT.run_get, pure_bind]
  cases hw : h.wrappers[w]? with
  | none => exact touches_self P C h
  | some wrapper =>
      simp only
      split
      · have hdead : Touches P C h { h with wrappers := h.wrappers.modify w fun wrapper =>
            { wrapper with live := false } } := by
          refine touches_of_same rfl rfl (fun _ => .inl) (fun _ => .inl) (fun v x hx => ?_)
            ⟨[], (List.append_nil _).symm, by simp⟩
          rw [List.getElem?_modify, hx]
          by_cases hwv : w = v <;> simp [hwv]
        exact hdead.trans (touches_release wrapper.resource)
      · exact touches_self P C h

theorem mem_of_mem_erase {α : Type} {t : Table String α} {s : String} {e : String × α}
    (he : e ∈ t.erase s) : e ∈ t := (List.mem_filter.mp he).1

theorem eq_or_mem_of_mem_put {α : Type} {t : Table String α} {s : String} {x : α}
    {e : String × α} (he : e ∈ t.put s x) : e = (s, x) ∨ e ∈ t := by
  rcases List.mem_cons.mp he with he | he
  · exact .inl he
  · exact .inr (mem_of_mem_erase he)

theorem touches_name {s : String} {t : Thing} (ht : ∀ c, t = .handle c → h.IsLoose c) :
    Touches P C h { h with names := h.names.put s t } := by
  refine touches_of_same rfl rfl (fun e he => ?_) (fun _ => .inl) (fun _ x hx => ⟨x, hx, rfl⟩)
    ⟨[], (List.append_nil _).symm, by simp⟩
  rcases eq_or_mem_of_mem_put he with rfl | he
  · exact .inr ht
  · exact .inl he

theorem touches_forget (s : String) :
    Touches P C h { h with names := h.names.erase s } :=
  touches_of_same rfl rfl (fun _ he => .inl (mem_of_mem_erase he)) (fun _ => .inl)
    (fun _ x hx => ⟨x, hx, rfl⟩) ⟨[], (List.append_nil _).symm, by simp⟩

theorem touches_wait (ps : List PendingId) : Touches P C h { h with waiting := ps } :=
  touches_of_trace_eq rfl rfl rfl rfl rfl rfl

/-! ## Calls that belong to nobody -/

theorem call_of_length_le {c : CallId} (hc : h.calls.length ≤ c) : h.call c = default := by
  simp [call, List.getElem?_eq_none hc]

theorem call_createCall (h : Host) (call : Call) (c : CallId) :
    ((createCall call).run h).2.call c = if c = h.calls.length then call else h.call c := by
  change ((h.calls ++ [call])[c]?).getD default = _
  rcases Nat.lt_trichotomy c h.calls.length with hc | rfl | hc
  · rw [List.getElem?_append_left hc, if_neg (Nat.ne_of_lt hc)]
    simp [Host.call]
  · simp
  · have hlen : (h.calls ++ [call]).length ≤ c := by simpa using Nat.succ_le_of_lt hc
    rw [List.getElem?_eq_none hlen, if_neg (Nat.ne_of_gt hc),
      call_of_length_le (Nat.le_of_lt hc)]
    rfl

theorem touches_createCall (k : CallKind) (reply : Option MessageId) (attached : Bool) :
    Touches P (· = h.calls.length) h ((createCall (.start k reply attached)).run h).2 := by
  constructor
  case size => rfl
  case owner => exact fun _ => rfl
  case slot => exact fun _ => .inl rfl
  case pending => exact fun _ _ => rfl
  case calls =>
    change h.calls.length ≤ (h.calls ++ [_]).length
    simp
  case call =>
    intro c hc
    rw [call_createCall, if_neg hc]
  case completed =>
    intro c
    rw [call_createCall]
    split
    · next hc =>
        rw [call_of_length_le (Nat.le_of_eq hc.symm)]
        rfl
    · rfl
  case kind =>
    intro c hc
    rw [call_createCall, if_neg (Nat.ne_of_lt hc)]
  case registered =>
    intro c p hp
    rw [call_createCall] at hp
    split at hp
    · cases hp
    · exact .inl hp
  case handles => exact fun _ => .inl
  case lines => exact fun _ => .inl
  case wrappers => exact fun _ x hx => ⟨x, hx, rfl⟩
  case trace => exact ⟨[], (List.append_nil _).symm, by simp⟩

theorem Orderly.owns (ho : h.Orderly) {p : PendingId} (hp : p < h.pendings.length) :
    Owns (· = p) (· = (h.pending p).call) h where
  pendings q hq := by
    obtain rfl : q = p := hq
    exact hp
  calls c hc := by
    obtain rfl : c = (h.pending p).call := hc
    exact ho.owned p hp
  owner q hq hc := ho.distinct q hq p hp hc
  registered c q hc hq := by
    obtain ⟨hlt, hcall⟩ := ho.registered c q hq
    exact ho.distinct q hlt p hp (hcall.trans hc)

theorem Orderly.owns_none (ho : h.Orderly) {c : CallId} (hc : h.IsLoose c) :
    Owns (fun _ => False) (· = c) h where
  pendings _ := False.elim
  calls d hd := by
    obtain rfl : d = c := hd
    exact hc.1
  owner q hq hcall := hc.2 q hq hcall
  registered d q hd hq := by
    obtain rfl : d = c := hd
    obtain ⟨hlt, hcall⟩ := ho.registered d q hq
    exact hc.2 q hlt hcall

/-- Nothing of a pending call is registered with a call that belongs to nobody. -/
theorem Orderly.data_ne_slot (ho : h.Orderly) {c : CallId} (hc : h.IsLoose c)
    (p : PendingId) : (h.call c).registration.data ≠ .slot p :=
  fun hp => (ho.owns_none hc).registered c p rfl hp

/-! ## Acts on a pending call -/

theorem modifyPending_of_length_le {p : PendingId} (hp : h.pendings.length ≤ p)
    (f : Pending → Pending) : ((modifyPending p f).run h).2 = h := by
  change { h with pendings := h.pendings.modify p f } = h
  rw [List.modify_eq_self hp]

/-- Nothing happens to a pending call that does not exist. -/
theorem cancel_of_length_le {p : PendingId} (hp : h.pendings.length ≤ p) :
    ((Pending.cancel p).run h).2 = h := by
  rw [Pending.cancel, StateT.run_bind, StateT.run_get, pure_bind, pending_of_length_le hp]
  exact modifyPending_of_length_le hp _

theorem close_of_length_le {p : PendingId} (hp : h.pendings.length ≤ p) :
    ((Pending.close p).run h).2 = h := by
  have hclosed : ((modifyPending p fun pending => { pending with holding := false }).run h).2 =
      h := modifyPending_of_length_le hp _
  rw [Pending.close, StateT.run_bind, StateT.run_get, pure_bind, pending_of_length_le hp]
  change ((takeSlot p).run ((modifyPending p _).run h).2).2 = h
  rw [hclosed]
  exact modifyPending_of_length_le hp _

/-- Freeing the data of a pending call empties its slot, and does nothing else. -/
theorem slot_freeData {c : CallId} {p : PendingId} {r : Registration} (hr : r.frees = true)
    (hdata : r.data = .slot p) : (((freeData c r).run h).2.pending p).slot = .absent := by
  rw [Callbacks.run_freeData, if_pos hr, hdata]
  exact slot_takeSlot _ p

end Host

/-- The act is about a pending call and takes the reaction out of its slot. -/
inductive Release (h : Host) (p : PendingId) : Host → Prop
  | cancel : Release h p ((Pending.cancel p).run h).2
  | close : Release h p ((Pending.close p).run h).2
  | free (hfrees : (h.call (h.pending p).call).registration.frees = true)
      (hdata : (h.call (h.pending p).call).registration.data = .slot p) : Release h p
        ((freeData (h.pending p).call (h.call (h.pending p).call).registration).run h).2

theorem Release.touches (ho : h.Orderly) {p : PendingId} (hp : p < h.pendings.length)
    (hr : Release h p h') : Touches (· = p) (· = (h.pending p).call) h h' := by
  cases hr with
  | cancel => exact (ho.owns hp).touches_cancel rfl fun _ => rfl
  | close => exact (ho.owns hp).touches_close rfl fun _ => rfl
  | free hfrees hdata =>
      refine touches_freeData (ho.owned p hp) ?_
      intro q hq
      obtain rfl : p = q := by simpa [hdata] using hq
      exact ⟨rfl, hp⟩

theorem Release.slot {p : PendingId} (hr : Release h p h') : (h'.pending p).slot = .absent := by
  cases hr with
  | cancel => exact slot_cancel h p
  | close => exact slot_close h p
  | free hfrees hdata => exact slot_freeData hfrees hdata

/-- What an act can do in an orderly state. -/
theorem Act.cases (ho : h.Orderly) (ha : Act h h') :
    (∃ C, (∀ p < h.pendings.length, ¬ C (h.pending p).call) ∧
      Touches (fun _ => False) C h h') ∨
    (∃ p < h.pendings.length, Release h p h') ∨
    (∃ c reaction, h.IsUnclaimed c ∧ h' = ((Pending.register c reaction).run.run h).2) ∨
    ∃ c < h.calls.length, (h.call c).isReady = true ∧ h' = ((Host.opening c).run h).2 := by
  have hnone : ∀ {h'}, Touches (fun _ => False) (fun _ => False) h h' →
      ∃ C, (∀ p < h.pendings.length, ¬ C (h.pending p).call) ∧
        Touches (fun _ => False) C h h' :=
    fun hh => ⟨_, fun _ _ => id, hh⟩
  have hloose : ∀ {c h'}, h.IsLoose c → Touches (fun _ => False) (· = c) h h' →
      ∃ C, (∀ p < h.pendings.length, ¬ C (h.pending p).call) ∧
        Touches (fun _ => False) C h h' :=
    fun hc hh => ⟨_, hc.2, hh⟩
  cases ha with
  | calm hcalm => exact .inl (hnone hcalm.touches)
  | create r => exact .inl (hnone (touches_create r))
  | share r => exact .inl (hnone (touches_share r))
  | adopt r => exact .inl (hnone (touches_adopt r))
  | letGoWrapper w => exact .inl (hnone (touches_letGoWrapper w))
  | name s t ht => exact .inl (hnone (touches_name ht))
  | forget s => exact .inl (hnone (touches_forget s))
  | wait ps => exact .inl (hnone (touches_wait ps))
  | createCall k reply attached =>
      exact .inl ⟨(· = h.calls.length), fun p hp => Nat.ne_of_lt (ho.owned p hp),
        touches_createCall k reply attached⟩
  | attach hc =>
      exact .inl (hloose hc.loose
        (touches_modifyCall rfl (fun _ => ⟨rfl, rfl⟩) fun _ hp => .inl hp))
  | register hc reaction => exact .inr (.inr (.inl ⟨_, reaction, hc, rfl⟩))
  | cancel p =>
      rcases Nat.lt_or_ge p h.pendings.length with hp | hp
      · exact .inr (.inl ⟨p, hp, .cancel⟩)
      · rw [cancel_of_length_le hp]
        exact .inl (hnone (touches_self _ _ h))
  | close p =>
      rcases Nat.lt_or_ge p h.pendings.length with hp | hp
      · exact .inr (.inl ⟨p, hp, .close⟩)
      · rw [close_of_length_le hp]
        exact .inl (hnone (touches_self _ _ h))
  | free c =>
      cases hfrees : (h.call c).registration.frees with
      | false =>
          rw [Callbacks.freeData_of_not_frees _ hfrees]
          exact .inl (hnone (touches_self _ _ h))
      | true =>
          cases hdata : (h.call c).registration.data with
          | slot p =>
              obtain ⟨hp, rfl⟩ := ho.registered c p hdata
              exact .inr (.inl ⟨p, hp, .free hfrees hdata⟩)
          | note x =>
              have hc : c < h.calls.length := Nat.lt_of_not_le fun hge => by
                rw [call_of_length_le hge] at hfrees
                exact Bool.false_ne_true hfrees
              exact .inl (hnone (touches_freeData hc (by simp [hdata])))
  | opening hc =>
      cases hready : (h.call _).isReady with
      | false =>
          rw [opening_of_not_isReady hready]
          exact .inl (hnone (touches_self _ _ h))
      | true => exact .inr (.inr (.inr ⟨_, hc, hready, rfl⟩))
  | leave => exact .inl (hnone touches_leave)
  | setNotify hc notifies frees x =>
      exact .inl (hloose hc (touches_setNotify rfl hc.1
        (fun p hp => absurd hp (ho.data_ne_slot hc p)) (by simp)))
  | cancelCall hc => exact .inl (hloose hc ((ho.owns_none hc).touches_cancelCall rfl))
  | stealReply hc => exact .inl (hloose hc (touches_stealReply rfl))
  | unreference hc => exact .inl (hloose hc ((ho.owns_none hc).touches_unreference rfl))

end

end DBusHost
