import DBusHost.Proofs.Session.Referred
import DBusHost.Proofs.Session.Runs

/-!
# Sessions are sequences of turns

Seen from the references to native objects, a session is a sequence of turns.  A reply that comes
in is a turn up to the start of the handler, leaving the notify function afterwards is another
one, and what the handler does in between are turns again.  After each of them the references
are accounted for and the live wrappers are those that something refers to.
-/

namespace DBusHost

open Host

/-- What can happen between two moments at which references are accounted for. -/
inductive Turn (h : Host) : Host → Prop
  | quiet {h' : Host} (hquiet : Quiet h h') : Turn h h'
  | create (r : Resource) : Turn h ((create r).run h).2
  | share (r : Resource) : Turn h ((share r).run h).2
  /-- A reference is taken over and the wrapper is given a name. -/
  | adoptAs (name : String) (r : Resource) : Turn h ((adoptAs name r).run h).2
  | assign (name : String) {t : Thing} (ht : ∀ w, t = .wrapper w → h.refersTo w = true) :
      Turn h ((assign name t).run h).2
  | drop (name : String) : Turn h ((Session.drop name).run.run h).2
  /-- A reply comes in, up to the start of the handler. -/
  | opening (c : CallId) : Turn h ((opening c).run h).2
  /-- The notify function is left, and the host forgets the wrapper of the reply. -/
  | leave {w : WrapperId} {id : Option String} {rest : List Frame}
      (hframes : h.frames = ⟨w, id⟩ :: rest) :
      Turn h ((do leave; letGoWrapper w : StateM Host Unit).run h).2

/-- A sequence of turns leads from one state to another one. -/
abbrev Turns : Host → Host → Prop := Relation.ReflTransGen Turn

section

variable {α : Type} {h h' : Host} {c : CallId} {w : WrapperId} {run : Reacting}

namespace Host

/-! ## A reply comes in -/

/-- The reply is taken over and its delivery begins. -/
def receive (m : MessageId) (handler : Option String) : StateM Host WrapperId := do
  let w ← adopt (.message m)
  modify fun h => { h with frames := ⟨w, handler⟩ :: h.frames }
  return w

theorem quiet_seize (c : CallId) (p : PendingId) : Moves Quiet (seize c p) :=
  quiet_lock.bind fun _ => (moves_takeSlot p).discard.bind fun _ => (moves_stealReply c).discard

theorem quiet_mark (c : CallId) : Moves Quiet (mark c) := by
  have hrecord : Moves Quiet (record (.completed c)) := quiet_record rfl
  exact hrecord.bind fun _ => moves_modifyCall c _

theorem quiet_ring (c : CallId) (p : PendingId) : Moves Quiet (ring c p) := by
  have hrecord : Moves Quiet (record (.notified c (.slot p))) := quiet_record rfl
  exact (quiet_mark c).bind fun _ => hrecord

theorem quiet_greet (o : Option (PendingId × WrapperId × MessageId × Reaction)) :
    Moves Quiet (greet o) := by
  unfold greet
  split
  · have hrecord : ∀ p id w, Moves Quiet (record (.started p id w)) := fun _ _ _ => quiet_record rfl
    exact (hrecord _ _ _).bind fun _ => moves_pure _
  · exact moves_pure _

theorem greet_fst (o : Option (PendingId × WrapperId × MessageId × Reaction)) (h : Host) :
    ((greet o).run h).1 = o := by
  unfold greet
  split <;> rfl

/-- Either there is nothing to deliver, and nothing happens to references, or the reply of the
call is taken over and its delivery begins. -/
theorem opening_cases (c : CallId) (h : Host) :
    (((opening c).run h).1 = none ∧ Quiet h ((opening c).run h).2 ∧
      ∀ p, h.Rings c p → (h.call c).reply = none) ∨
    ∃ p m h₁, h.Rings c p ∧ (h.call c).reply = some m ∧ Quiet h h₁ ∧
      ((opening c).run h).1 =
        some (p, ((receive m (h.pending p).slot.id?).run h₁).1, m, (h.pending p).slot) ∧
      Quiet ((receive m (h.pending p).slot.id?).run h₁).2 ((opening c).run h).2 := by
  by_cases hrings : ∃ p, h.Rings c p
  · obtain ⟨p, hr⟩ := hrings
    have hring := quiet_ring c p h
    have hseize := quiet_seize c p ((ring c p).run h).2
    have happroach := run_approach c p ((ring c p).run h).2
    rw [reply_ring, slot_ring] at happroach
    rw [opening_of_rings hr, StateT.run_bind]
    cases hm : (h.call c).reply with
    | none =>
        have hwarned : Moves Quiet (do
            record (.warned "D-Bus notify function was called for an incomplete pending call")
            record (.logged .warning "notify function called for an incomplete pending call" none)
            unlock : StateM Host Unit) :=
          (quiet_record rfl).bind fun _ => (quiet_record rfl).bind fun _ => quiet_unlock
        have hincomplete := hwarned ((seize c p).run ((ring c p).run h).2).2
        rw [hm] at happroach
        rw [happroach]
        exact .inl ⟨rfl, trans_of Quiet hring (trans_of Quiet hseize hincomplete), fun _ _ => rfl⟩
    | some m =>
        rw [hm] at happroach
        rw [happroach]
        exact .inr ⟨p, m, ((seize c p).run ((ring c p).run h).2).2, hr, rfl,
          trans_of Quiet hring hseize, greet_fst _ _, quiet_greet _ _⟩
  · have hdone : ((opening c).run h).1 = none ∧ Quiet h ((opening c).run h).2 := by
      rw [run_opening]
      by_cases hready : (h.call c).isReady = true
      · have hnote : ∀ x, Moves Quiet (record (.notified c (.note x))) := fun x => quiet_record rfl
        rw [if_pos hready, announce]
        split
        · next hnotifies =>
            cases hdata : (h.call c).registration.data with
            | slot p => exact absurd ⟨p, hready, hnotifies, hdata⟩ hrings
            | note x => exact ⟨rfl, trans_of Quiet (quiet_mark c h) (hnote x _)⟩
        · exact ⟨rfl, quiet_mark c h⟩
      · rw [if_neg hready]
        exact ⟨rfl, refl_of Quiet h⟩
    exact .inl ⟨hdone.1, hdone.2, fun p hr => absurd ⟨p, hr⟩ hrings⟩

/-! ## What turns keep -/

/-- The same deliveries are in progress. -/
def SameFrames (h h' : Host) : Prop := h'.frames = h.frames

instance : AdmitsChanges SameFrames where
  refl _ := rfl
  trans _ _ _ hab hbc := hbc.trans hab
  serene hserene := hserene.frames
  create _ _ := rfl
  share _ _ := rfl
  adopt r h := (referrers_adopt r h).2
  letGoWrapper w h := (referrers_letGoWrapper w h).2
  name _ _ _ _ := rfl
  forget _ _ := rfl
  close p h := (moves_closePending (R := Quiet) p h).frames

theorem Accounted.receive (ha : h.Accounted) (m : MessageId) (id : Option String) :
    ((Host.receive m id).run h).2.Accounted :=
  (ha.adopt (.message m)).of_same rfl rfl rfl

theorem Settled.receive (hs : h.Settled) (m : MessageId) (id : Option String) :
    ((Host.receive m id).run h).2.Settled := by
  obtain ⟨hbut, hlive⟩ := Settled.adopt hs (.message m)
  exact hbut.push hlive id

theorem frames_receive (m : MessageId) (id : Option String) (h : Host) :
    ((receive m id).run h).2.frames = ⟨((receive m id).run h).1, id⟩ :: h.frames :=
  congrArg _ (referrers_adopt (.message m) h).2

end Host

/-- Turns keep references accounted for. -/
theorem Turn.accounted (ht : Turn h h') (ha : h.Accounted) : h'.Accounted := by
  cases ht with
  | quiet hquiet => exact hquiet.accounted ha
  | create r => exact ha.create r
  | share r => exact ha.share r
  | adoptAs name r =>
      have hmoves : Moves Accounts (Host.adoptAs name r) := Admits.adoptAs name r
      exact hmoves h ha
  | @assign name t ht =>
      have hnamed : Moves Accounts _ := moves_named name t (h.names.get? name)
      exact hnamed _ (ha.of_same rfl rfl rfl)
  | drop name =>
      have hmoves : Moves Accounts (Session.drop name).run := Admits.drop name
      exact hmoves h ha
  | opening c =>
      rcases opening_cases c h with ⟨-, hquiet, -⟩ | ⟨p, m, h₁, -, -, hbefore, -, hafter⟩
      · exact hquiet.accounted ha
      · exact hafter.accounted ((hbefore.accounted ha).receive m _)
  | @leave w id rest hframes =>
      have hunlocked := (quiet_unlock h).accounted ha
      have hleft : (Host.leave.run h).2.Accounted := hunlocked.of_same rfl rfl rfl
      exact hleft.letGoWrapper w

/-- After a turn the live wrappers are those that something refers to. -/
theorem Turn.settled (ht : Turn h h') (hs : h.Settled) : h'.Settled := by
  cases ht with
  | quiet hquiet => exact SettledBut.quiet hs hquiet
  | create r => exact SettledBut.of_eq hs rfl rfl rfl
  | share r => exact SettledBut.of_eq hs rfl rfl rfl
  | adoptAs name r => exact Settled.adoptAs hs name r
  | @assign name t ht =>
      refine SettledBut.assign hs (fun w hw => ?_) (fun _ hw => hw.elim) name
      exact hs.live w (ht w hw)
  | drop name => exact Settled.drop hs name
  | opening c =>
      rcases opening_cases c h with ⟨-, hquiet, -⟩ | ⟨p, m, h₁, -, -, hbefore, -, hafter⟩
      · exact SettledBut.quiet hs hquiet
      · exact SettledBut.quiet (Settled.receive (SettledBut.quiet hs hbefore) m _) hafter
  | @leave w id rest hframes =>
      have hunlocked : Settled (unlock.run h).2 := SettledBut.quiet hs (quiet_unlock h)
      have hleft : SettledBut (· = w) (Host.leave.run h).2 := Settled.pop hunlocked hframes
      exact hleft.letGoWrapper

theorem Turns.accounted (ht : Turns h h') (ha : h.Accounted) : h'.Accounted := by
  induction ht with
  | refl => exact ha
  | tail _ ht ih => exact ht.accounted ih

theorem Turns.settled (ht : Turns h h') (hs : h.Settled) : h'.Settled := by
  induction ht with
  | refl => exact hs
  | tail _ ht ih => exact ht.settled ih

end

end DBusHost
