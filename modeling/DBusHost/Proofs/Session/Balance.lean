import DBusHost.Proofs.Session.Turns

/-!
# One wrapper and one reference

Every step of a session is a sequence of turns, whatever its handlers do, and so is every session
as a whole.  Hence a native object has one live wrapper at most, which is there as long as
something refers to it, and the host holds one reference to an object that has one and none to
any other.
-/

namespace DBusHost

open Host

section

variable {h h' : Host} {c : CallId} {w : WrapperId} {run : Reacting}

/-- Turns lead from one state to another one with the same deliveries in progress. -/
def Proceeds (h h' : Host) : Prop := Turns h h' ∧ SameFrames h h'

theorem Turn.proceeds (ht : Turn h h') (hframes : SameFrames h h') : Proceeds h h' :=
  ⟨.single ht, hframes⟩

theorem Host.Quiet.proceeds (hh : Quiet h h') : Proceeds h h' := (Turn.quiet hh).proceeds hh.frames

instance : Admits Proceeds where
  refl h := ⟨.refl, refl_of SameFrames h⟩
  trans _ _ _ hab hbc := ⟨hab.1.trans hbc.1, trans_of SameFrames hab.2 hbc.2⟩
  serene hserene := hserene.quiet.proceeds
  create r _ := (Turn.create r).proceeds rfl
  share r _ := (Turn.share r).proceeds rfl
  adoptAs name r h := (Turn.adoptAs name r).proceeds (moves_adoptAs name r h)
  assign name _ hw hc h :=
    (Turn.assign name fun w hwt => absurd hwt (hw w)).proceeds (moves_assign name hc h)
  drop name h := (Turn.drop name).proceeds (moves_drop name h)
  close p h := (moves_closePending (R := Quiet) p h).proceeds

instance : AdmitsSteps Proceeds where
  record he h := (AdmitsCalls.record (R := Quiet) he h).proceeds
  change h calls pendings lines waiting :=
    (AdmitsCalls.change (R := Quiet) h calls pendings lines waiting).proceeds
  nameHandle name c h := by
    have hnamed : Moves SameFrames _ := moves_named name (.handle c) (h.names.get? name)
    exact (Turn.assign name fun w hw => absurd hw (by simp)).proceeds (hnamed _)

/-- Waiting has nothing to do with references. -/
theorem proceeds_blocked (c : CallId) : Moves Proceeds (record (.blocked c)) :=
  fun h => (quiet_record rfl h).proceeds

/-- Turns lead from one state to another one if a delivery with the wrapper is in progress. -/
def ProceedsIn (w : WrapperId) (h h' : Host) : Prop :=
  (∃ f ∈ h.frames, f.wrapper = w) → Proceeds h h'

theorem Proceeds.within (hp : Proceeds h h') : ProceedsIn w h h' := fun _ => hp

instance (w : WrapperId) : IsPreorder Host (ProceedsIn w) where
  refl h := (refl_of Proceeds h).within
  trans _ _ _ hab hbc hf := by
    have hfirst := hab hf
    refine trans_of Proceeds hfirst (hbc ?_)
    rwa [show _ = _ from hfirst.2]

instance (w : WrapperId) : AdmitsSteps (ProceedsIn w) :=
  admitsSteps_of_le fun _ _ => Proceeds.within

/-! ## Deliveries -/

/-- A delivery ends as it has begun: what comes between leaves the notify function, and the
wrapper of the reply is the one that the delivery began with. -/
theorem proceeds_complete (hrun : ∀ w n actions, Moves (ProceedsIn w) (run w n actions))
    (c : CallId) : Moves Proceeds (complete run c) := by
  intro h
  have hopening : Turn h ((opening c).run h).2 := .opening c
  rw [complete_eq, StateT.run_bind]
  change Proceeds h ((closing run ((opening c).run h).1).run ((opening c).run h).2).2
  rcases opening_cases c h with ⟨hnone, hquiet, -⟩ | ⟨p, m, h₁, -, -, hbefore, hsome, hafter⟩
  · rw [hnone]
    exact hopening.proceeds hquiet.frames
  · rw [hsome]
    have hbegun : ((opening c).run h).2.frames =
        ⟨((receive m (h.pending p).slot.id?).run h₁).1, (h.pending p).slot.id?⟩ :: h.frames := by
      rw [hafter.frames, frames_receive, hbefore.frames]
    generalize ((receive m (h.pending p).slot.id?).run h₁).1 = w at hbegun ⊢
    generalize ((opening c).run h).2 = h₂ at hopening hbegun ⊢
    have hresume : Moves (ProceedsIn w) (resume run p w m (h.pending p).slot) :=
      moves_resume (hrun w) p m _
    obtain ⟨hturns, hframes⟩ := hresume h₂ (by simp [hbegun])
    have hleave := Turn.leave (hframes.trans hbegun)
    have hopened : Turns h h₂ := .single hopening
    refine ⟨(hopened.trans hturns).tail hleave, ?_⟩
    have hgone := (referrers_letGoWrapper w (leave.run
      ((resume run p w m (h.pending p).slot).run h₂).2).2).2
    exact hgone.trans (congrArg List.tail (hframes.trans hbegun))

/-! ## Steps and handlers -/

/-- While its delivery is in progress, the reply may be given a name. -/
theorem proceedsIn_keep (w : WrapperId) (name : String) :
    Moves (ProceedsIn w) (assign name (.wrapper w)) := by
  intro h hframe
  refine (Turn.assign name fun v hv => ?_).proceeds (moves_assign name (by simp) h)
  obtain rfl : w = v := Thing.wrapper.inj hv
  exact refersTo_iff.mpr (.inr hframe)

/-- The induction is on how deep handlers may still nest. -/
theorem proceedsIn_reactWithin (depth : Nat) (w : WrapperId) (n : Nat) (actions : List Action) :
    Moves (ProceedsIn w) (reactWithin depth w n actions) := by
  induction depth generalizing w n actions with
  | zero => exact moves_pure _
  | succ depth ih =>
      refine moves_runActions (fun s => ?_) (proceedsIn_keep w) n actions
      exact (moves_step proceeds_blocked (proceeds_complete ih) s).mono fun _ _ => Proceeds.within

/-- A session is a sequence of turns from the state in which nothing has been made. -/
theorem Script.turns_run (s : Script) : Turns (.start s.validator s.failures) s.run.2 := by
  have hcomplete := proceeds_complete (proceedsIn_reactWithin s.handlers)
  exact (moves_reportSteps (moves_step proceeds_blocked hcomplete) s.steps _).1

/-! ## Replies that nobody waits for -/

namespace Host

/-- A reply for which there is no handler is given back as soon as it has been delivered. -/
theorem Settled.count_complete (hs : h.Settled) (run : Reacting) {p : PendingId} {m : MessageId}
    (hr : h.Rings c p) (hm : (h.call c).reply = some m) (hslot : (h.pending p).slot.id? = none) :
    ((complete run c).run h).2.count (.message m) = h.count (.message m) - 1 := by
  rcases opening_cases c h with ⟨-, -, hno⟩ | ⟨q, n, h₁, hr', hm', hbefore, hsome, hafter⟩
  · rw [hno p hr] at hm
    cases hm
  obtain rfl : q = p := by simpa [hr.data] using hr'.data.symm
  obtain rfl : n = m := Option.some.inj (hm'.symm.trans hm)
  have hresume : ∀ w, Moves Quiet (resume run q w n (h.pending q).slot) := by
    intro w
    cases hreaction : (h.pending q).slot with
    | absent => exact moves_pure _
    | inert => exact quiet_record rfl
    | handler id actions => simp [hreaction, Reaction.id?] at hslot
  rw [complete_eq, StateT.run_bind]
  change ((closing run ((opening c).run h).1).run ((opening c).run h).2).2.count _ = _
  rw [hsome]
  have hunlocked : ∀ w, Quiet ((Host.receive n (h.pending q).slot.id?).run h₁).2
      (unlock.run ((resume run q w n (h.pending q).slot).run ((opening c).run h).2).2).2 := fun w =>
    trans_of Quiet hafter (trans_of Quiet (hresume w _) (quiet_unlock _))
  obtain ⟨hreferences, hwrappers, hnames, hframes, -⟩ :=
    hunlocked ((Host.receive n (h.pending q).slot.id?).run h₁).1
  rw [frames_receive] at hframes
  have hold : ((Host.receive n (h.pending q).slot.id?).run h₁).2.names = h₁.names :=
    (referrers_adopt (.message n) h₁).1
  rw [← count_congr hbefore.references]
  exact Settled.count_letGoWrapper (SettledBut.quiet hs hbefore) hreferences hwrappers
    (hnames.trans hold) (congrArg List.tail hframes)

end Host

/-- What holds of wrappers and references to native objects in a state. -/
structure Host.Balanced (h : Host) : Prop where
  /-- A native object has one live wrapper at most. -/
  unique : ∀ r w w', h.IsLive w r → h.IsLive w' r → w = w'
  /-- A wrapper is live as long as a name or a delivery in progress refers to it, and no
  longer. -/
  referred : ∀ w, (∃ r, h.IsLive w r) ↔ h.refersTo w = true
  /-- If an object that has a live wrapper is taken over, the answer is that wrapper. -/
  adopted : ∀ r w, h.IsLive w r → ((adopt r).run h).1 = w
  /-- If it is taken over under a name, the wrapper has one more name. -/
  named : ∀ name r w, h.IsLive w r → ((adoptAs name r).run h).1 = h.namesOf (.wrapper w) ∧
    ((adoptAs name r).run h).2.names.get? name = some (.wrapper w)
  /-- The host holds one reference to an object that has a live wrapper. -/
  one : ∀ r w, h.IsLive w r → Event.held r h.trace = 1
  /-- It holds none to an object that has none. -/
  zero : ∀ r, (∀ w, ¬ h.IsLive w r) → Event.held r h.trace = 0
  /-- All other references are those of others, who have not handed them over to the host. -/
  count : ∀ r, h.count r = Event.outside r h.trace + Event.held r h.trace
  /-- At no time has the host given back a reference that it had not taken over before. -/
  covered : ∀ r before, before <+: h.trace → 0 ≤ Event.held r before
  /-- If there is no handler for a reply that comes in, it has one reference less afterwards. -/
  unheard : ∀ run c p m, h.Rings c p → (h.call c).reply = some m →
    (h.pending p).slot.id? = none →
    ((complete run c).run h).2.count (.message m) = h.count (.message m) - 1

theorem Host.Accounted.balanced (ha : h.Accounted) (hs : h.Settled) : h.Balanced where
  unique := ha.unique
  referred w := ⟨fun ⟨_, hw⟩ => Settled.refersTo hs hw, hs.live w⟩
  adopted r w hw := by rw [ha.adopt_of_isLive hw]
  named name _ _ hw := ha.adoptAs_of_isLive hw name
  one := ha.one
  zero := ha.zero
  count := ha.count
  covered := ha.covered
  unheard run _ _ _ hr hm hslot := Settled.count_complete hs run hr hm hslot

/-- Sessions, and all of their steps and handlers, are sequences of turns, and whatever sequence
of turns there has been, every native object has one wrapper and one reference of the host, or
none of both. -/
theorem Script.references_balanced (v : Validator) (f : Failures) :
    (∀ steps, Turns (.start v f) (Script.run ⟨v, f, steps⟩).2) ∧
      ∀ h, Turns (.start v f) h → h.Balanced ∧
        (∀ n s, Turns h ((Step.perform (reactWithin n) s).run.run h).2) ∧
        ∀ n w k actions, (∃ d ∈ h.frames, d.wrapper = w) →
          Turns h ((reactWithin n w k actions).run h).2 := by
  constructor
  · intro steps
    exact Script.turns_run ⟨v, f, steps⟩
  · intro h ht
    have ha := ht.accounted (accounted_start v f)
    have hs := ht.settled (settled_start v f)
    refine ⟨ha.balanced hs, ?_, ?_⟩
    · intro n s
      exact (moves_step proceeds_blocked (proceeds_complete (proceedsIn_reactWithin n)) s h).1
    · intro n w k actions hframe
      exact (proceedsIn_reactWithin n w k actions h hframe).1

end

end DBusHost
