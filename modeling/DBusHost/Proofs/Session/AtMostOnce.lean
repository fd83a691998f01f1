import DBusHost.Proofs.Session.Runs

/-!
# Replies are delivered at most once

Four things race for the reaction in a slot: the notification, cancelling, closing, and the
native library freeing the data of the notify function.  Whichever comes first empties the
slot for good, and only a notification that does so may start the handler.
-/

namespace DBusHost

open Host

/-- The event is the start of the handler of a pending call. -/
def Event.isStartOf (p : PendingId) : Event → Bool
  | .started q _ _ => q = p
  | _ => false

theorem Event.exists_of_isStartOf {p : PendingId} {e : Event} (he : e.isStartOf p = true) :
    ∃ id w, e = .started p id w := by
  cases e with
  | started q id w =>
      obtain rfl : q = p := by simpa [Event.isStartOf] using he
      exact ⟨id, w, rfl⟩
  | _ => cases he

section

variable {h h' : Host} {p : PendingId} {c : CallId}

namespace Host

/-! ## At most one start -/

/-- What stands before the second of two starts would have emptied the slot before the
notification that belongs to it. -/
theorem Orderly.not_two_starts (ho : h.Orderly) {before between after : List Event}
    {id id' : String} {w w' : WrapperId}
    (htrace : h.trace = before ++ .started p id w :: between ++ .started p id' w' :: after) :
    False := by
  have hfirst : h.IsNotified before p w :=
    ho.starts before p id w (between ++ .started p id' w' :: after) (by simpa using htrace)
  have hsecond : h.IsNotified (before ++ .started p id w :: between) p w' :=
    ho.starts _ p id' w' after htrace
  obtain ⟨front, m, rest, hbefore, -⟩ := hfirst
  obtain ⟨front', m', rest', hbefore', hrest', -, hnot⟩ := hsecond
  have hmem : Event.started p id w ∉ [.notified (h.pending p).call (.slot p), .locked,
      .stolen (h.pending p).call m', .adopted (.message m')] ++ rest' := by
    rcases hrest' with rfl | rfl <;> simp
  rw [List.append_assoc] at hbefore'
  obtain ⟨rest'', hfront⟩ := exists_of_append_eq hbefore'.symm hmem
  refine hnot (.notified (h.pending p).call (.slot p)) ?_ rfl
  rw [hfront, hbefore]
  simp

theorem Orderly.countP_isStartOf_le_one (ho : h.Orderly) (p : PendingId) :
    h.trace.countP (Event.isStartOf p) ≤ 1 := by
  apply Nat.le_of_not_lt
  intro htwo
  rw [List.countP_eq_length_filter] at htwo
  obtain ⟨e, e', es, hfilter⟩ : ∃ e e' es, h.trace.filter (Event.isStartOf p) = e :: e' :: es := by
    rcases hfilter : h.trace.filter (Event.isStartOf p) with _ | ⟨e, _ | ⟨e', es⟩⟩
    · simp [hfilter] at htwo
    · simp [hfilter] at htwo
    · exact ⟨e, e', es, rfl⟩
  have hstart : ∀ d ∈ e :: e' :: es, d.isStartOf p = true :=
    fun d hd => (List.mem_filter.mp (hfilter ▸ hd)).2
  obtain ⟨id, w, rfl⟩ := Event.exists_of_isStartOf (hstart e (by simp))
  obtain ⟨id', w', rfl⟩ := Event.exists_of_isStartOf (hstart e' (by simp))
  have hsub : (.started p id w :: .started p id' w' :: es : List Event).Sublist h.trace :=
    hfilter ▸ List.filter_sublist
  obtain ⟨front, back, htrace, hmem, hsub⟩ := List.cons_sublist_iff.mp hsub
  obtain ⟨before, between, rfl⟩ := List.append_of_mem hmem
  obtain ⟨front', back', rfl, hmem', -⟩ := List.cons_sublist_iff.mp hsub
  obtain ⟨between', after, rfl⟩ := List.append_of_mem hmem'
  have hsplit : h.trace = before ++ .started p id w :: (between ++ between') ++
      .started p id' w' :: (after ++ back') := by
    simpa using htrace
  exact ho.not_two_starts hsplit

/-! ## No start from an empty slot -/

/-- The handler of a pending call has not been started on the way. -/
def Silent (p : PendingId) (h h' : Host) : Prop :=
  ∃ es, h'.trace = h.trace ++ es ∧ ∀ id w, .started p id w ∉ es

instance (p : PendingId) : IsPreorder Host (Silent p) where
  refl h := ⟨[], (List.append_nil _).symm, by simp⟩
  trans a b c hab hbc := by
    obtain ⟨es, hes, hno⟩ := hab
    obtain ⟨fs, hfs, hno'⟩ := hbc
    refine ⟨es ++ fs, by rw [hfs, hes, List.append_assoc], ?_⟩
    intro id w he
    rcases List.mem_append.mp he with he | he
    · exact hno id w he
    · exact hno' id w he

theorem Touches.silent {P : PendingId → Prop} {C : CallId → Prop} (hh : Touches P C h h')
    (p : PendingId) : Silent p h h' := by
  obtain ⟨es, htrace, hfits⟩ := hh.trace
  exact ⟨es, htrace, fun id w he => (hfits _ he).notStarted p id w rfl⟩

theorem silent_mark (c : CallId) : Moves (Silent p) (mark c) :=
  fun _ => ⟨[.completed c], rfl, by simp⟩

theorem silent_enlist (c : CallId) (reaction : Reaction) : Moves (Silent p) (enlist c reaction) :=
  fun _ => ⟨[], (List.append_nil _).symm, by simp⟩

end Host

/-- No act starts the handler if the slot is empty or no call notifies the pending call. -/
theorem Act.silent (ha : Act h h') (ho : h.Orderly)
    (hno : (h.pending p).slot = .absent ∨ ∀ c, ¬ h.Rings c p) : Silent p h h' := by
  rcases ha.cases ho with ⟨C, -, hh⟩ | ⟨q, hq, hr⟩ | ⟨c, reaction, hc, rfl⟩ | ⟨c, hc, hready, rfl⟩
  · exact hh.silent p
  · exact (hr.touches ho hq).silent p
  · rw [run_register]
    exact trans_of (Silent p) (silent_enlist c reaction h)
      (((ho.enlisted hc reaction).touches_enroll (ho.enlist hc)).silent p)
  · refine trans_of (Silent p) (silent_mark c h) ?_
    rcases ho.opening_cases hc hready with ⟨-, hh⟩ | ⟨q, -, -, hr, ⟨hh, -⟩ | hstart⟩
    · exact hh.silent p
    · exact hh.silent p
    · obtain ⟨id, actions, m, w, h', hslot, -, hs, hopening⟩ := hstart
      have hne : q ≠ p := by
        rintro rfl
        rcases hno with habsent | hrings
        · simp [hslot] at habsent
        · exact hrings c hr
      rw [hopening]
      refine trans_of (Silent p) (hs.touches.silent p) ⟨[.started q id w], rfl, fun i v => ?_⟩
      simp [Ne.symm hne]

theorem Acts.silent (ha : Acts h h') (ho : h.Orderly) (hp : p < h.pendings.length)
    (hslot : (h.pending p).slot = .absent) : Silent p h h' := by
  induction ha with
  | refl => exact refl_of (Silent p) h
  | tail hs ha ih =>
      exact trans_of (Silent p) ih
        (ha.silent (Acts.orderly hs ho) (.inl (Acts.slot_eq_absent hs ho hp hslot)))

/-! ## Delivery -/

/-- A notification empties the slot. -/
theorem Host.Orderly.slot_opening (ho : h.Orderly) (hr : h.Rings c p) :
    (((Host.opening c).run h).2.pending p).slot = .absent := by
  obtain ⟨hp, rfl⟩ := ho.registered c p hr.data
  rcases ho.opening_cases (ho.owned p hp) hr.ready with ⟨hrings, -⟩ | ⟨q, hq, -, hr', hcases⟩
  · exact absurd hr (hrings p)
  · obtain rfl : q = p := by simpa [hr.data] using hr'.data.symm
    rcases hcases with ⟨-, hslot⟩ | ⟨id, actions, m, w, h', -, -, hs, hopening⟩
    · exact hslot
    · rw [hopening]
      exact hs.slot

/-- A pending call that nothing else refers to is closed as it is dropped. -/
theorem letGo_eq_close (hnames : ∀ e ∈ h.names, e.2 ≠ .pending p) (hwaiting : p ∉ h.waiting) :
    (letGo (.pending p)).run h = (Pending.close p).run h := by
  have hunnamed : h.names.any (fun e => e.2 = .pending p) = false := by simpa using hnames
  have hunawaited : h.waiting.contains p = false := by simpa using hwaiting
  rw [letGo, StateT.run_bind, StateT.run_get, pure_bind]
  simp only [hunnamed, hunawaited]
  rfl

/-- Dropping such a pending call empties its slot. -/
theorem slot_letGo (hnames : ∀ e ∈ h.names, e.2 ≠ .pending p) (hwaiting : p ∉ h.waiting) :
    (((letGo (.pending p)).run h).2.pending p).slot = .absent := by
  rw [letGo_eq_close hnames hwaiting]
  exact slot_close h p

/-- Cancelling a pending call does not fail. -/
theorem perform_cancel {run : Reacting} {name : String}
    (hname : h.names.get? name = some (.pending p)) :
    ((Step.perform run (.call (.cancel name))).run.run h).1 = .ok .done := by
  have hthing : (Session.thing name).run.run h = (.ok (.pending p), h) := by
    rw [Session.run_thing, hname]
    rfl
  rw [Step.perform, CallStep.perform, Session.run_bind, hthing]
  rfl

/-- What holds of the delivery of replies in a state, and of all that may follow. -/
structure Host.DeliversOnce (h : Host) : Prop where
  /-- A handler is started at most once. -/
  once : ∀ p, h.trace.countP (Event.isStartOf p) ≤ 1
  /-- It is started by a notification that has stolen the reply of its own call, on the
  wrapper of that reply, and by the first thing that has emptied the slot. -/
  notified : ∀ before p id w after, h.trace = before ++ .started p id w :: after →
    h.IsNotified before p w
  /-- A slot is empty after an event that empties it. -/
  emptied : ∀ p < h.pendings.length, ∀ e ∈ h.trace, e.Empties p (h.pending p).call →
    (h.pending p).slot = .absent
  /-- Cancelling, closing and freeing the data empty the slot. -/
  released : ∀ p h', Release h p h' → (h'.pending p).slot = .absent
  /-- So does dropping a pending call that nothing else refers to. -/
  dropped : ∀ p, (∀ e ∈ h.names, e.2 ≠ .pending p) → p ∉ h.waiting →
    (((letGo (.pending p)).run h).2.pending p).slot = .absent
  /-- So does a notification. -/
  rung : ∀ c p, h.Rings c p → (((opening c).run h).2.pending p).slot = .absent
  /-- From then on the slot stays empty and the handler is not started. -/
  spent : ∀ p < h.pendings.length, (h.pending p).slot = .absent → ∀ h', Acts h h' →
    (h'.pending p).slot = .absent ∧ Silent p h h'
  /-- Cancelling never fails. -/
  cancels : ∀ run name p, h.names.get? name = some (.pending p) →
    ((Step.perform run (.call (.cancel name))).run.run h).1 = .ok .done

theorem Host.Orderly.deliversOnce (ho : h.Orderly) : h.DeliversOnce where
  once := ho.countP_isStartOf_le_one
  notified := ho.starts
  emptied := ho.emptied
  released _ _ hr := hr.slot
  dropped _ hnames hwaiting := slot_letGo hnames hwaiting
  rung _ _ hr := ho.slot_opening hr
  spent _ hp hslot _ ha := ⟨ha.slot_eq_absent ho hp hslot, ha.silent ho hp hslot⟩
  cancels _ _ _ hname := perform_cancel hname

/-- Sessions, and all of their steps, are sequences of acts, and whatever sequence of acts there
has been, replies are delivered at most once. -/
theorem Script.delivered_at_most_once (v : Validator) (f : Failures) :
    (∀ steps, Acts (.start v f) (Script.run ⟨v, f, steps⟩).2) ∧
      ∀ h, Acts (.start v f) h → h.DeliversOnce ∧
        ∀ n s, Acts h ((Step.perform (reactWithin n) s).run.run h).2 := by
  constructor
  · intro steps
    exact Script.acts_run ⟨v, f, steps⟩
  · intro h ha
    have ho := ha.orderly (orderly_start v f)
    refine ⟨ho.deliversOnce, ?_⟩
    intro n s
    exact follows_step (follows_reactWithin n) s h ho

end

end DBusHost
