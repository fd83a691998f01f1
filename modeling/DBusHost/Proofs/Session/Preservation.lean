import DBusHost.Proofs.Session.Inversion
import Mathlib.Logic.Relation

/-!
# Acts keep states orderly

What is left to see is that a new pending call fits in and that a reply that comes in does
no harm.  It follows for all sequences of acts.
-/

namespace DBusHost

open Host

section

variable {h h' : Host} {c : CallId} {reaction : Reaction}

namespace Host

/-! ## A new pending call -/

/-- A pending call on a call comes into being, whose handle is not held yet. -/
def enlist (c : CallId) (reaction : Reaction) : StateM Host Unit :=
  modify fun h => { h with pendings := h.pendings ++ [⟨c, false, reaction⟩] }

theorem pending_enlist (h : Host) (c : CallId) (reaction : Reaction) (p : PendingId) :
    ((enlist c reaction).run h).2.pending p =
      if p = h.pendings.length then ⟨c, false, reaction⟩ else h.pending p := by
  change ((h.pendings ++ [_])[p]?).getD default = _
  rcases Nat.lt_trichotomy p h.pendings.length with hp | rfl | hp
  · rw [List.getElem?_append_left hp, if_neg (Nat.ne_of_lt hp)]
    simp [pending]
  · simp
  · have hlen : (h.pendings ++ [(⟨c, false, reaction⟩ : Pending)]).length ≤ p := by
      simpa using Nat.succ_le_of_lt hp
    rw [List.getElem?_eq_none hlen, if_neg (Nat.ne_of_gt hp),
      pending_of_length_le (Nat.le_of_lt hp)]
    rfl

theorem pending_enlist_of_lt {p : PendingId} (hp : p < h.pendings.length) :
    ((enlist c reaction).run h).2.pending p = h.pending p := by
  rw [pending_enlist, if_neg (Nat.ne_of_lt hp)]

theorem pending_enlist_self :
    ((enlist c reaction).run h).2.pending h.pendings.length = ⟨c, false, reaction⟩ := by
  rw [pending_enlist, if_pos rfl]

theorem length_enlist (h : Host) (c : CallId) (reaction : Reaction) :
    ((enlist c reaction).run h).2.pendings.length = h.pendings.length + 1 :=
  List.length_append

theorem le_length_enlist (h : Host) (c : CallId) (reaction : Reaction) :
    h.pendings.length ≤ ((enlist c reaction).run h).2.pendings.length := by
  rw [length_enlist]
  exact Nat.le_succ _

theorem lt_or_eq_of_lt_enlist {p : PendingId}
    (hp : p < ((enlist c reaction).run h).2.pendings.length) :
    p < h.pendings.length ∨ p = h.pendings.length :=
  Nat.lt_succ_iff_lt_or_eq.mp (Nat.lt_of_lt_of_eq hp (length_enlist h c reaction))

/-- A call that nobody has claimed may get a pending call. -/
theorem Orderly.enlist (ho : h.Orderly) (hc : h.IsUnclaimed c) :
    ((Host.enlist c reaction).run h).2.Orderly := by
  have hle := le_length_enlist h c reaction
  constructor
  case owned =>
    intro p hp
    rcases lt_or_eq_of_lt_enlist hp with hp | rfl
    · rw [pending_enlist_of_lt hp]
      exact ho.owned p hp
    · rw [pending_enlist_self]
      exact hc.loose.1
  case distinct =>
    intro p hp q hq hpq
    rcases lt_or_eq_of_lt_enlist hp with hp | rfl <;>
      rcases lt_or_eq_of_lt_enlist hq with hq | rfl
    · rw [pending_enlist_of_lt hp, pending_enlist_of_lt hq] at hpq
      exact ho.distinct p hp q hq hpq
    · rw [pending_enlist_of_lt hp, pending_enlist_self] at hpq
      exact absurd hpq (hc.loose.2 p hp)
    · rw [pending_enlist_of_lt hq, pending_enlist_self] at hpq
      exact absurd hpq.symm (hc.loose.2 q hq)
    · rfl
  case registered =>
    intro d p hp
    obtain ⟨hlt, hcall⟩ := ho.registered d p hp
    exact ⟨Nat.lt_of_lt_of_le hlt hle, by rwa [pending_enlist_of_lt hlt]⟩
  case handles =>
    intro e he d hd
    obtain ⟨hlt, hnot⟩ := ho.handles e he d hd
    refine ⟨hlt, ?_⟩
    intro p hp
    rcases lt_or_eq_of_lt_enlist hp with hp | rfl
    · rw [pending_enlist_of_lt hp]
      exact hnot p hp
    · rw [pending_enlist_self]
      rintro rfl
      exact hc.unnamed e he hd
  case lines => exact ho.lines
  case within =>
    intro e he
    exact (ho.within e he).mono (Nat.le_refl _) hle
  case completed => exact ho.completed
  case emptied =>
    intro p hp e he hempties
    rcases lt_or_eq_of_lt_enlist hp with hp | rfl
    · rw [pending_enlist_of_lt hp] at hempties ⊢
      exact ho.emptied p hp e he hempties
    · -- nothing that has happened so far is about the new pending call
      rw [pending_enlist_self] at hempties
      have hwithin := ho.within e he
      have hunused := hc.unused e he
      cases e with
      | notified d x | freed d x =>
          cases x with
          | slot q =>
              obtain rfl : q = h.pendings.length := hempties
              exact absurd hwithin.2 (Nat.lt_irrefl _)
          | note x => exact hempties.elim
      | cancelled d =>
          obtain rfl : d = c := hempties
          exact absurd rfl hunused.1
      | unreferenced d =>
          obtain rfl : d = c := hempties
          exact absurd rfl hunused.2
      | _ => exact hempties.elim
  case starts =>
    intro before p id w after hsplit
    have hp : p < h.pendings.length := ho.lt_of_started hsplit
    exact (ho.starts before p id w after hsplit).mono
      (congrArg Pending.call (pending_enlist_of_lt hp)) fun x hx => ⟨x, hx, rfl⟩

/-! ## Registering -/

/-- A pending call whose functions could not be registered is dropped. -/
def abandon (c : CallId) (p : PendingId) : StateM Host Unit := do
  record (.logged .debug "cannot register notify function, abandoning call" none)
  cancelCall c
  unreference c
  discard (takeSlot p)

/-- Registering with a call that has got a pending call. -/
def enroll (c : CallId) (p : PendingId) : Session PendingId := do
  if ← setNotify c ⟨true, true, .slot p⟩ then
    modifyPending p fun pending => { pending with holding := true }
    return p
  Host.abandon c p
  throw (.noMemory .setNotify)

theorem run_register (c : CallId) (reaction : Reaction) (h : Host) :
    (Pending.register c reaction).run.run h =
      (enroll c h.pendings.length).run.run ((enlist c reaction).run h).2 := rfl

theorem run_enroll (c : CallId) (p : PendingId) (h : Host) :
    (enroll c p).run.run h = match (setNotify c ⟨true, true, .slot p⟩).run h with
      | (true, h') => (.ok p,
          ((modifyPending p fun pending => { pending with holding := true }).run h').2)
      | (false, h') => (.error (.noMemory .setNotify), ((Host.abandon c p).run h').2) := by
  rw [enroll, Session.run_lift_bind]
  rcases (setNotify c ⟨true, true, .slot p⟩).run h with ⟨_ | _, h'⟩ <;> rfl

/-- A call that nobody has claimed before has got a pending call. -/
structure Enlisted (h : Host) (c : CallId) (p : PendingId) : Prop where
  exists_pending : p < h.pendings.length
  owner : (h.pending p).call = c
  exists_call : c < h.calls.length
  unregistered : ∀ q, (h.call c).registration.data ≠ .slot q

theorem Orderly.enlisted (ho : h.Orderly) (hc : h.IsUnclaimed c) (reaction : Reaction) :
    Enlisted ((Host.enlist c reaction).run h).2 c h.pendings.length where
  exists_pending := Nat.lt_of_lt_of_eq (Nat.lt_succ_self _) (length_enlist h c reaction).symm
  owner := congrArg Pending.call pending_enlist_self
  exists_call := hc.loose.1
  unregistered := ho.data_ne_slot hc.loose

theorem Enlisted.touches {p : PendingId} {P : PendingId → Prop} (he : Enlisted h c p) :
    Touches P (· = c) h ((setNotify c ⟨true, true, .slot p⟩).run h).2 := by
  refine touches_setNotify rfl he.exists_call (fun q hq => absurd hq (he.unregistered q)) ?_
  intro q hq
  obtain rfl : p = q := by simpa using hq
  exact ⟨he.exists_pending, he.owner⟩

theorem Owns.touches_abandon {P : PendingId → Prop} {C : CallId → Prop} {p : PendingId}
    (ho : Owns P C h) (hp : P p) (hc : C c) :
    Touches P C h ((Host.abandon c p).run h).2 := by
  have hlogged : Touches P C h ((record (.logged .debug
      "cannot register notify function, abandoning call" none)).run h).2 :=
    touches_plain trivial
  have hcancelled := hlogged.trans ((hlogged.owns ho).touches_cancelCall hc)
  have hgiven := hcancelled.trans ((hcancelled.owns ho).touches_unreference hc)
  exact hgiven.trans (touches_takeSlot hp)

theorem touches_hold {P : PendingId → Prop} {C : CallId → Prop} {p : PendingId} (hp : P p) :
    Touches P C h
      ((modifyPending p fun pending => { pending with holding := true }).run h).2 :=
  touches_modifyPending hp (fun _ => rfl) fun _ => .inl rfl

theorem Enlisted.touches_enroll {p : PendingId} (he : Enlisted h c p) (ho : h.Orderly) :
    Touches (· = p) (· = c) h ((enroll c p).run.run h).2 := by
  have hset : Touches (· = p) (· = c) h ((setNotify c ⟨true, true, .slot p⟩).run h).2 :=
    he.touches
  rw [run_enroll]
  rcases hrun : (setNotify c ⟨true, true, .slot p⟩).run h with ⟨_ | _, h'⟩
  · rw [hrun] at hset
    have howns : Owns (· = p) (· = c) h' := hset.owns (he.owner ▸ ho.owns he.exists_pending)
    exact hset.trans (howns.touches_abandon rfl rfl)
  · rw [hrun] at hset
    exact hset.trans (touches_hold rfl)

/-- Whether or not the functions could be registered, the state is orderly. -/
theorem Orderly.enroll {p : PendingId} (ho : h.Orderly) (he : Enlisted h c p) :
    ((Host.enroll c p).run.run h).2.Orderly := by
  have hset : ((setNotify c ⟨true, true, .slot p⟩).run h).2.Orderly :=
    he.touches.orderly_of_none ho
  rw [run_enroll]
  rcases hrun : (setNotify c ⟨true, true, .slot p⟩).run h with ⟨_ | _, h'⟩
  · have htouches : Touches (· = p) (· = c) h h' := by
      have hall : Touches (· = p) (· = c) h ((setNotify c ⟨true, true, .slot p⟩).run h).2 :=
        he.touches
      rwa [hrun] at hall
    have howns : Owns (· = p) (· = c) h' := htouches.owns (he.owner ▸ ho.owns he.exists_pending)
    rw [hrun] at hset
    refine (howns.touches_abandon rfl rfl).orderly hset fun q hq => .inl ?_
    obtain rfl : q = p := hq
    exact slot_takeSlot _ q
  · rw [hrun] at hset
    have hhold : Touches (· = p) (fun _ => False) h' _ := touches_hold rfl
    exact hhold.orderly hset fun _ _ => .inr rfl

theorem Orderly.register (ho : h.Orderly) (hc : h.IsUnclaimed c) (reaction : Reaction) :
    ((Pending.register c reaction).run.run h).2.Orderly := by
  rw [run_register]
  exact (ho.enlist hc).enroll (ho.enlisted hc reaction)

/-! ## A reply that comes in -/

/-- What a reply that comes in can do in an orderly state. -/
theorem Orderly.opening_cases (ho : h.Orderly) (hc : c < h.calls.length)
    (hready : (h.call c).isReady = true) :
    ((∀ p, ¬ h.Rings c p) ∧
      Touches (fun _ => False) (· = c) ((Host.mark c).run h).2 ((Host.opening c).run h).2) ∨
    ∃ p < h.pendings.length, (h.pending p).call = c ∧ h.Rings c p ∧
      (((Touches (· = p) (· = c) ((Host.mark c).run h).2 ((Host.opening c).run h).2) ∧
        (((Host.opening c).run h).2.pending p).slot = .absent) ∨
      ∃ id actions m w h', (h.pending p).slot = .handler id actions ∧
        (h.call c).reply = some m ∧ Starting h h' c p m w ∧
        ((Host.opening c).run h).2 = ((record (.started p id w)).run h').2) := by
  by_cases hrings : ∃ p, h.Rings c p
  · obtain ⟨p, hr⟩ := hrings
    obtain ⟨hp, hpc⟩ := ho.registered c p hr.data
    refine .inr ⟨p, hp, hpc, hr, ?_⟩
    cases hreply : (h.call c).reply with
    | none => exact .inl (opening_of_no_handler hr hc hp (.inl hreply))
    | some m =>
        cases hslot : (h.pending p).slot with
        | absent => exact .inl (opening_of_no_handler hr hc hp (.inr (by simp [hslot])))
        | inert => exact .inl (opening_of_no_handler hr hc hp (.inr (by simp [hslot])))
        | handler id actions =>
            obtain ⟨w, h', hs, hopening⟩ := opening_of_handler hr hc hp hreply hslot
            exact .inr ⟨id, actions, m, w, h', rfl, rfl, hs, hopening⟩
  · have hrings : ∀ p, ¬ h.Rings c p := fun p hr => hrings ⟨p, hr⟩
    exact .inl ⟨hrings, touches_opening hc hready hrings⟩

theorem Orderly.opening (ho : h.Orderly) (hc : c < h.calls.length)
    (hready : (h.call c).isReady = true) : ((Host.opening c).run h).2.Orderly := by
  rcases ho.opening_cases hc hready with ⟨-, hh⟩ | ⟨p, hp, hpc, -, ⟨hh, hslot⟩ | hstart⟩
  · exact hh.orderly_of_none (ho.mark hc)
  · refine hh.orderly (ho.mark hc) fun q hq => .inl ?_
    obtain rfl : q = p := hq
    exact hslot
  · obtain ⟨id, actions, m, w, h', hslot, -, hs, hopening⟩ := hstart
    rw [hopening]
    exact hs.orderly ho hc hp hpc (by simp [hslot]) id

end Host

/-- Every act leads from an orderly state to an orderly one. -/
theorem Act.orderly (ha : Act h h') (ho : h.Orderly) : h'.Orderly := by
  rcases ha.cases ho with ⟨C, -, hh⟩ | ⟨p, hp, hr⟩ | ⟨c, reaction, hc, rfl⟩ | ⟨c, hc, hready, rfl⟩
  · exact hh.orderly_of_none ho
  · refine (hr.touches ho hp).orderly ho fun q hq => .inl ?_
    obtain rfl : q = p := hq
    exact hr.slot
  · exact ho.register hc reaction
  · exact ho.opening hc hready

/-- A sequence of acts leads from one state to another one. -/
abbrev Acts : Host → Host → Prop := Relation.ReflTransGen Act

theorem Acts.orderly (ha : Acts h h') (ho : h.Orderly) : h'.Orderly := by
  induction ha with
  | refl => exact ho
  | tail _ ha ih => exact ha.orderly ih

/-! ## What stays -/

namespace Host

/-- Nothing gets lost, no slot is filled and no completion is undone. -/
structure Grows (h h' : Host) : Prop where
  pendings : h.pendings.length ≤ h'.pendings.length
  calls : h.calls.length ≤ h'.calls.length
  kind : ∀ c < h.calls.length, (h'.call c).kind = (h.call c).kind
  completed : ∀ c, (h.call c).completed = true → (h'.call c).completed = true
  owner : ∀ p < h.pendings.length, (h'.pending p).call = (h.pending p).call
  slot : ∀ p < h.pendings.length,
    (h'.pending p).slot = (h.pending p).slot ∨ (h'.pending p).slot = .absent
  wrappers : ∀ (w : WrapperId) (x : Wrapper), h.wrappers[w]? = some x →
    ∃ y : Wrapper, h'.wrappers[w]? = some y ∧ y.resource = x.resource
  trace : h.trace <+: h'.trace

instance : IsPreorder Host Grows where
  refl _ := {
    pendings := Nat.le_refl _
    calls := Nat.le_refl _
    kind := fun _ _ => rfl
    completed := fun _ hc => hc
    owner := fun _ _ => rfl
    slot := fun _ _ => .inl rfl
    wrappers := fun _ x hx => ⟨x, hx, rfl⟩
    trace := List.prefix_refl _ }
  trans _ _ _ hab hbc := by
    constructor
    case pendings => exact Nat.le_trans hab.pendings hbc.pendings
    case calls => exact Nat.le_trans hab.calls hbc.calls
    case kind =>
      intro c hc
      exact (hbc.kind c (Nat.lt_of_lt_of_le hc hab.calls)).trans (hab.kind c hc)
    case completed =>
      intro c hc
      exact hbc.completed c (hab.completed c hc)
    case owner =>
      intro p hp
      exact (hbc.owner p (Nat.lt_of_lt_of_le hp hab.pendings)).trans (hab.owner p hp)
    case slot =>
      intro p hp
      rcases hbc.slot p (Nat.lt_of_lt_of_le hp hab.pendings) with hslot | hslot
      · rw [hslot]
        exact hab.slot p hp
      · exact .inr hslot
    case trace => exact hab.trace.trans hbc.trace
    case wrappers =>
      intro w x hx
      obtain ⟨y, hy, hyx⟩ := hab.wrappers w x hx
      obtain ⟨z, hz, hzy⟩ := hbc.wrappers w y hy
      exact ⟨z, hz, hzy.trans hyx⟩

theorem Touches.grows {P : PendingId → Prop} {C : CallId → Prop} (hh : Touches P C h h') :
    Grows h h' where
  pendings := Nat.le_of_eq hh.size.symm
  calls := hh.calls
  kind := hh.kind
  completed c hc := (hh.completed c).trans hc
  owner p _ := hh.owner p
  slot p _ := hh.slot p
  wrappers := hh.wrappers
  trace := by
    obtain ⟨es, htrace, -⟩ := hh.trace
    rw [htrace]
    exact List.prefix_append _ _

theorem grows_mark (c : CallId) : Moves Grows (mark c) := by
  intro h
  constructor
  case pendings => exact Nat.le_refl _
  case calls => exact Nat.le_of_eq (List.length_modify ..).symm
  case kind =>
    intro d _
    rw [call_mark]
    split <;> rfl
  case completed =>
    intro d hd
    rw [call_mark]
    split
    · rfl
    · exact hd
  case owner => exact fun _ _ => rfl
  case slot => exact fun _ _ => .inl rfl
  case wrappers => exact fun _ x hx => ⟨x, hx, rfl⟩
  case trace => exact List.prefix_append _ _

theorem grows_record (e : Event) : Moves Grows (record e) := by
  intro h
  constructor
  case pendings => exact Nat.le_refl _
  case calls => exact Nat.le_refl _
  case kind => exact fun _ _ => rfl
  case completed => exact fun _ hc => hc
  case owner => exact fun _ _ => rfl
  case slot => exact fun _ _ => .inl rfl
  case wrappers => exact fun _ x hx => ⟨x, hx, rfl⟩
  case trace => exact List.prefix_append _ _

theorem grows_enlist (c : CallId) (reaction : Reaction) : Moves Grows (enlist c reaction) := by
  intro h
  constructor
  case pendings => exact le_length_enlist h c reaction
  case calls => exact Nat.le_refl _
  case kind => exact fun _ _ => rfl
  case completed => exact fun _ hc => hc
  case owner =>
    intro p hp
    rw [pending_enlist_of_lt hp]
  case slot =>
    intro p hp
    rw [pending_enlist_of_lt hp]
    exact .inl rfl
  case wrappers => exact fun _ x hx => ⟨x, hx, rfl⟩
  case trace => exact List.prefix_refl _

theorem Orderly.grows_register (ho : h.Orderly) (hc : h.IsUnclaimed c) (reaction : Reaction) :
    Grows h ((Pending.register c reaction).run.run h).2 := by
  rw [run_register]
  exact trans_of Grows (grows_enlist c reaction h)
    ((ho.enlisted hc reaction).touches_enroll (ho.enlist hc)).grows

theorem Orderly.grows_opening (ho : h.Orderly) (hc : c < h.calls.length)
    (hready : (h.call c).isReady = true) : Grows h ((Host.opening c).run h).2 := by
  refine trans_of Grows (grows_mark c h) ?_
  rcases ho.opening_cases hc hready with ⟨-, hh⟩ | ⟨p, -, -, -, ⟨hh, -⟩ | hstart⟩
  · exact hh.grows
  · exact hh.grows
  · obtain ⟨id, actions, m, w, h', -, -, hs, hopening⟩ := hstart
    rw [hopening]
    exact trans_of Grows hs.touches.grows (grows_record _ h')

end Host

theorem Act.grows (ha : Act h h') (ho : h.Orderly) : Grows h h' := by
  rcases ha.cases ho with ⟨C, -, hh⟩ | ⟨p, hp, hr⟩ | ⟨c, reaction, hc, rfl⟩ | ⟨c, hc, hready, rfl⟩
  · exact hh.grows
  · exact (hr.touches ho hp).grows
  · exact ho.grows_register hc reaction
  · exact ho.grows_opening hc hready

theorem Acts.grows (ha : Acts h h') (ho : h.Orderly) : Grows h h' := by
  induction ha with
  | refl => exact refl_of Grows h
  | tail hs ha ih => exact trans_of Grows ih (ha.grows (Acts.orderly hs ho))

/-- A slot that is empty stays empty. -/
theorem Acts.slot_eq_absent (ha : Acts h h') (ho : h.Orderly) {p : PendingId}
    (hp : p < h.pendings.length) (hslot : (h.pending p).slot = .absent) :
    (h'.pending p).slot = .absent := by
  rcases (ha.grows ho).slot p hp with hsame | habsent
  · exact hsame.trans hslot
  · exact habsent

end

end DBusHost
