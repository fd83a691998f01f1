import DBusHost.Proofs.Session.Touches

/-!
# A reply comes in

The notify function of pending calls empties the slot and takes the reply out of the call.
If there was a handler in the slot and a reply in the call, the last thing that happens is
that the handler is started on the wrapper of the reply; otherwise no handler is started.
-/

namespace DBusHost

namespace Host

section

variable {P : PendingId → Prop} {C : CallId → Prop} {h : Host}

/-! ## Taking over the reply -/

/-- Adopting gives the reference back if there is a live wrapper, and makes one otherwise. -/
theorem run_adopt (r : Resource) (h : Host) :
    (adopt r).run h = match h.wrapperOf? r with
      | some w => (w, ((release r).run ((record (.adopted r)).run h).2).2)
      | none => (h.wrappers.length, { ((record (.adopted r)).run h).2 with
          wrappers := h.wrappers ++ [⟨r, true⟩] }) := by
  have hwrapper : ((record (.adopted r)).run h).2.wrapperOf? r = h.wrapperOf? r := rfl
  simp only [adopt, StateT.run_bind, StateT.run_get]
  change (match ((record (.adopted r)).run h).2.wrapperOf? r with
    | some w => do
      release r
      return w
    | none => do
      let w := (← get).wrappers.length
      modify fun h => { h with wrappers := h.wrappers ++ [⟨r, true⟩] }
      return w : StateM Host WrapperId).run ((record (.adopted r)).run h).2 = _
  rw [hwrapper]
  cases h.wrapperOf? r <;> rfl

theorem resource_of_wrapperOf? {r : Resource} {w : WrapperId} (hw : h.wrapperOf? r = some w) :
    ∃ x, h.wrappers[w]? = some x ∧ x.resource = r := by
  obtain ⟨hlt, hx, -⟩ := List.findIdx?_eq_some_iff_getElem.mp hw
  refine ⟨h.wrappers[w], List.getElem?_eq_getElem hlt, ?_⟩
  simp only [Bool.and_eq_true, decide_eq_true_eq] at hx
  exact hx.2

theorem touches_adopt (r : Resource) : Touches P C h ((adopt r).run h).2 := by
  have hrecord : Touches P C h ((record (.adopted r)).run h).2 := touches_plain trivial
  rw [run_adopt]
  cases h.wrapperOf? r with
  | some w => exact hrecord.trans (touches_release r)
  | none =>
      refine hrecord.trans (touches_of_same rfl rfl (fun _ => .inl) (fun _ => .inl)
        (fun w x hx => ?_) ⟨[], (List.append_nil _).symm, by simp⟩)
      have hlt : w < h.wrappers.length := (List.getElem?_eq_some_iff.mp hx).1
      exact ⟨x, (List.getElem?_append_left hlt).trans hx, rfl⟩

/-- The wrapper that is answered is one of the object. -/
theorem resource_adopt (r : Resource) (h : Host) :
    ∃ x, ((adopt r).run h).2.wrappers[((adopt r).run h).1]? = some x ∧ x.resource = r := by
  rw [run_adopt]
  cases hw : h.wrapperOf? r with
  | some w => exact resource_of_wrapperOf? hw
  | none => exact ⟨⟨r, true⟩, by simp, rfl⟩

/-- Adopting records itself, and that the reference was given back if it was. -/
theorem trace_adopt (r : Resource) (h : Host) : ∃ rest,
    ((adopt r).run h).2.trace = h.trace ++ .adopted r :: rest ∧
      (rest = [] ∨ rest = [.released r]) := by
  rw [run_adopt]
  cases h.wrapperOf? r with
  | some w => exact ⟨[.released r], List.append_assoc h.trace [.adopted r] _, .inr rfl⟩
  | none => exact ⟨[], rfl, .inl rfl⟩

/-- The lock is taken, the slot is emptied and the reply is taken out. -/
def seize (c : CallId) (p : PendingId) : StateM Host Unit := do
  lock
  discard (takeSlot p)
  discard (stealReply c)

theorem run_stealReply (c : CallId) (h : Host) :
    (stealReply c).run h = ((h.call c).reply, ((match (h.call c).reply with
      | none => modifyCall c fun call => { call with reply := none }
      | some m => do
        record (.stolen c m)
        modifyCall c fun call => { call with reply := none } : StateM Host Unit).run h).2) := by
  simp only [stealReply, StateT.run_bind, StateT.run_get, pure_bind]
  cases (h.call c).reply <;> rfl

theorem run_approach (c : CallId) (p : PendingId) (h : Host) :
    (approach c p).run h = match (h.call c).reply with
      | none => (none, ((do
          record (.warned
            "D-Bus notify function was called for an incomplete pending call")
          record (.logged .warning
            "notify function called for an incomplete pending call" none)
          unlock : StateM Host Unit).run ((seize c p).run h).2).2)
      | some m =>
        let (w, h') := (adopt (.message m)).run ((seize c p).run h).2
        (some (p, w, m, (h.pending p).slot),
          { h' with frames := ⟨w, (h.pending p).slot.id?⟩ :: h'.frames }) := by
  have hsteal := run_stealReply c ((takeSlot p).run (lock.run h).2).2
  have hcall : ((takeSlot p).run (lock.run h).2).2.call c = h.call c := rfl
  have htake : ((takeSlot p).run (lock.run h).2).1 = (h.pending p).slot := rfl
  have hseize : ((seize c p).run h).2 =
      ((stealReply c).run ((takeSlot p).run (lock.run h).2).2).2 := rfl
  rw [hcall] at hsteal
  rw [approach, StateT.run_bind, hseize]
  change (StateT.run (match ((stealReply c).run ((takeSlot p).run (lock.run h).2).2).1 with
    | none => _
    | some m => _) ((stealReply c).run ((takeSlot p).run (lock.run h).2).2).2) = _
  rw [hsteal]
  cases hreply : (h.call c).reply with
  | none => rfl
  | some m => rfl

theorem trace_seize {c : CallId} {m : MessageId} (hm : (h.call c).reply = some m)
    (p : PendingId) : ((seize c p).run h).2.trace = h.trace ++ [.locked, .stolen c m] := by
  have hsteal := run_stealReply c ((takeSlot p).run (lock.run h).2).2
  have hcall : ((takeSlot p).run (lock.run h).2).2.call c = h.call c := rfl
  have hseize : ((seize c p).run h).2 =
      ((stealReply c).run ((takeSlot p).run (lock.run h).2).2).2 := rfl
  rw [hseize, hsteal, hcall, hm]
  exact List.append_assoc h.trace [.locked] [.stolen c m]

theorem touches_seize {c : CallId} {p : PendingId} (hp : P p) (hc : C c) :
    Touches P C h ((seize c p).run h).2 :=
  ((touches_lock h).trans (touches_takeSlot hp)).trans (touches_stealReply hc)

theorem touches_approach {c : CallId} {p : PendingId} (hp : P p) (hc : C c) :
    Touches P C h ((approach c p).run h).2 := by
  have hseize : Touches P C h ((seize c p).run h).2 := touches_seize hp hc
  rw [run_approach]
  cases (h.call c).reply with
  | none =>
      have hwarned := hseize.trans (touches_plain (e := .warned
        "D-Bus notify function was called for an incomplete pending call") trivial)
      have hlogged := hwarned.trans (touches_plain (e := .logged .warning
        "notify function called for an incomplete pending call" none) trivial)
      exact hlogged.trans (touches_unlock _)
  | some m =>
      have hadopt := hseize.trans (touches_adopt (.message m))
      have hframe : ∀ h' : Host, ∀ f, Touches P C h' { h' with frames := f :: h'.frames } :=
        fun _ _ => touches_of_trace_eq rfl rfl rfl rfl rfl rfl
      exact hadopt.trans (hframe _ _)

theorem slot_seize (c : CallId) (p : PendingId) (h : Host) :
    (((seize c p).run h).2.pending p).slot = .absent := by
  have hseize : ((seize c p).run h).2 =
      ((stealReply c).run ((takeSlot p).run (lock.run h).2).2).2 := rfl
  have hsteal : Touches (fun _ => False) (fun _ => True) ((takeSlot p).run (lock.run h).2).2
      ((seize c p).run h).2 := hseize ▸ touches_stealReply trivial
  rw [hsteal.pending p id]
  exact slot_takeSlot _ p

theorem slot_approach (c : CallId) (p : PendingId) (h : Host) :
    (((approach c p).run h).2.pending p).slot = .absent := by
  have hslot := slot_seize c p h
  rw [run_approach]
  cases (h.call c).reply with
  | none => exact hslot
  | some m =>
      have hadopt : Touches (fun _ => False) (fun _ => True) ((seize c p).run h).2
          ((adopt (.message m)).run ((seize c p).run h).2).2 := touches_adopt (.message m)
      exact (congrArg Pending.slot (hadopt.pending p id)).trans hslot

/-- If the reply is there, it is taken out and adopted. -/
theorem trace_approach {c : CallId} {m : MessageId} (hm : (h.call c).reply = some m)
    (p : PendingId) : ∃ w x rest,
    ((approach c p).run h).1 = some (p, w, m, (h.pending p).slot) ∧
      ((approach c p).run h).2.trace =
        h.trace ++ [.locked, .stolen c m, .adopted (.message m)] ++ rest ∧
      (rest = [] ∨ rest = [.released (.message m)]) ∧
      ((approach c p).run h).2.wrappers[w]? = some x ∧ x.resource = .message m := by
  obtain ⟨x, hx, hresource⟩ := resource_adopt (.message m) ((seize c p).run h).2
  obtain ⟨rest, htrace, hrest⟩ := trace_adopt (.message m) ((seize c p).run h).2
  rw [run_approach, hm]
  refine ⟨_, x, rest, rfl, ?_, hrest, hx, hresource⟩
  change ((adopt (.message m)).run ((seize c p).run h).2).2.trace = _
  rw [htrace, trace_seize hm]
  simp

theorem approach_of_reply_eq_none {c : CallId} (hreply : (h.call c).reply = none)
    (p : PendingId) : ((approach c p).run h).1 = none := by
  rw [run_approach, hreply]

/-! ## The opening -/

/-- When its reply comes in, the call calls the notify function of the pending call. -/
structure Rings (h : Host) (c : CallId) (p : PendingId) : Prop where
  ready : (h.call c).isReady = true
  notifies : (h.call c).registration.notifies = true
  data : (h.call c).registration.data = .slot p

/-- The call is marked as completed and the notify function of the pending call is called. -/
def ring (c : CallId) (p : PendingId) : StateM Host Unit := do
  mark c
  record (.notified c (.slot p))

theorem run_opening (c : CallId) (h : Host) :
    (opening c).run h = if (h.call c).isReady = true then
      (announce c (h.call c).registration).run ((mark c).run h).2 else (none, h) := by
  cases hready : (h.call c).isReady with
  | false =>
      simp only [opening, StateT.run_bind, StateT.run_get, pure_bind, hready]
      rfl
  | true =>
      simp only [opening, StateT.run_bind, StateT.run_get, pure_bind, hready]
      rfl

theorem opening_of_not_isReady {c : CallId} (hready : (h.call c).isReady = false) :
    (opening c).run h = (none, h) := by
  rw [run_opening, hready]
  rfl

/-- Unless it notifies a pending call, the call does no more than notify its own note. -/
theorem opening_of_not_rings {c : CallId} (hready : (h.call c).isReady = true)
    (hrings : ∀ p, ¬ h.Rings c p) :
    ((opening c).run h).2 = ((mark c).run h).2 ∨
      ∃ x, ((opening c).run h).2 =
        ((record (.notified c (.note x))).run ((mark c).run h).2).2 := by
  rw [run_opening, if_pos hready, announce]
  split
  · next hnotifies =>
      cases hdata : (h.call c).registration.data with
      | slot p => exact absurd ⟨hready, hnotifies, hdata⟩ (hrings p)
      | note x => exact .inr ⟨x, rfl⟩
  · exact .inl rfl

theorem touches_opening {c : CallId} (hc : c < h.calls.length)
    (hready : (h.call c).isReady = true) (hrings : ∀ p, ¬ h.Rings c p) :
    Touches P C ((mark c).run h).2 ((opening c).run h).2 := by
  rcases opening_of_not_rings hready hrings with hopening | ⟨x, hopening⟩
  · rw [hopening]
    exact touches_self P C _
  · have hlt : c < ((mark c).run h).2.calls.length :=
      Nat.lt_of_lt_of_eq hc (List.length_modify ..).symm
    rw [hopening]
    exact touches_record (fits_notified hlt (by simp))

theorem opening_of_rings {c : CallId} {p : PendingId} (hr : h.Rings c p) :
    (opening c).run h = (approach c p >>= greet).run ((ring c p).run h).2 := by
  rw [run_opening, if_pos hr.ready, announce, if_pos hr.notifies, hr.data]
  rfl

theorem touches_ring {c : CallId} {p : PendingId} (hp : P p) (hclt : c < h.calls.length)
    (hplt : p < h.pendings.length) :
    Touches P C ((mark c).run h).2 ((ring c p).run h).2 := by
  have hlt : c < ((mark c).run h).2.calls.length :=
    Nat.lt_of_lt_of_eq hclt (List.length_modify ..).symm
  refine touches_record (fits_notified hlt fun q hq => ?_)
  obtain rfl : p = q := by simpa using hq
  exact ⟨hp, hplt⟩

theorem slot_ring (c : CallId) (p : PendingId) (h : Host) :
    ((ring c p).run h).2.pending p = h.pending p := rfl

theorem reply_ring (c : CallId) (p : PendingId) (h : Host) :
    (((ring c p).run h).2.call c).reply = (h.call c).reply := by
  change (((modifyCall c fun call => { call with completed := true }).run h).2.call c).reply = _
  rw [call_modifyCall]
  split <;> rfl

/-- The handler of a pending call is about to be started on a reply. -/
structure Starting (h h' : Host) (c : CallId) (p : PendingId) (m : MessageId)
    (w : WrapperId) : Prop where
  touches : Touches (· = p) (· = c) ((mark c).run h).2 h'
  slot : (h'.pending p).slot = .absent
  wrapper : ∃ x, h'.wrappers[w]? = some x ∧ x.resource = .message m
  trace : ∃ rest, (rest = [] ∨ rest = [.released (.message m)]) ∧ h'.trace = h.trace ++
    [.completed c, .notified c (.slot p), .locked, .stolen c m, .adopted (.message m)] ++ rest

/-- If there is a handler and a reply, the handler is started on the reply in the end. -/
theorem opening_of_handler {c : CallId} {p : PendingId} {m : MessageId} {id : String}
    {actions : List Action} (hr : h.Rings c p) (hc : c < h.calls.length)
    (hp : p < h.pendings.length) (hm : (h.call c).reply = some m)
    (hslot : (h.pending p).slot = .handler id actions) :
    ∃ w h', Starting h h' c p m w ∧
      ((opening c).run h).2 = ((record (.started p id w)).run h').2 := by
  have hring : Touches (· = p) (· = c) ((mark c).run h).2 ((ring c p).run h).2 :=
    touches_ring rfl hc hp
  obtain ⟨w, x, rest, hresult, htrace, hrest, hx, hresource⟩ :=
    trace_approach ((reply_ring c p h).trans hm) p
  rw [slot_ring, hslot] at hresult
  refine ⟨w, _, ⟨hring.trans (touches_approach rfl rfl), slot_approach c p _,
    ⟨x, hx, hresource⟩, rest, hrest, ?_⟩, ?_⟩
  · rw [htrace]
    change (h.trace ++ [.completed c]) ++ [.notified c (.slot p)] ++ _ ++ _ = _
    simp
  · rw [opening_of_rings hr, StateT.run_bind]
    change ((greet ((approach c p).run ((ring c p).run h).2).1).run _).2 = _
    rw [hresult]
    rfl

/-- Otherwise no handler is started. -/
theorem opening_of_no_handler {c : CallId} {p : PendingId} (hr : h.Rings c p)
    (hc : c < h.calls.length) (hp : p < h.pendings.length)
    (hno : (h.call c).reply = none ∨ ∀ id actions, (h.pending p).slot ≠ .handler id actions) :
    Touches (· = p) (· = c) ((mark c).run h).2 ((opening c).run h).2 ∧
      (((opening c).run h).2.pending p).slot = .absent := by
  have hring : Touches (· = p) (· = c) ((mark c).run h).2 ((ring c p).run h).2 :=
    touches_ring rfl hc hp
  have hgreet : ((opening c).run h).2 = ((approach c p).run ((ring c p).run h).2).2 := by
    rw [opening_of_rings hr, StateT.run_bind]
    change ((greet ((approach c p).run ((ring c p).run h).2).1).run _).2 = _
    cases hreply : (h.call c).reply with
    | none => rw [approach_of_reply_eq_none ((reply_ring c p h).trans hreply)]; rfl
    | some m =>
        obtain ⟨w, x, rest, hresult, -⟩ := trace_approach ((reply_ring c p h).trans hreply) p
        rw [hresult, slot_ring]
        cases hslot : (h.pending p).slot with
        | absent => rfl
        | inert => rfl
        | handler id actions =>
            rcases hno with hno | hno
            · simp [hreply] at hno
            · exact absurd hslot (hno id actions)
  rw [hgreet]
  exact ⟨hring.trans (touches_approach rfl rfl), slot_approach c p _⟩

end

end Host

end DBusHost
