import DBusHost.Proofs.Session.Lock

/-!
# Replies are handled under the host lock

Every call of the notify function is a run of notifications, and so is whatever a handler does,
by induction on how deep handlers may still nest.  Hence the lock is held once for each notify
function that is in progress, nothing is done to a reply without it, and it is held as often
after an outermost notification as before.
-/

namespace DBusHost

open Host

/-- A run of notifications leads from one state to another one, with the same notify functions
in progress. -/
def Runs (s : List Stage) (h h' : Host) : Prop := Course (h, s) (h', s)

/-- What a session does next: something aside, or a run of notifications. -/
inductive Round (h : Host) : Host → Prop
  | aside {h' : Host} (hh : Aside h h') : Round h h'
  | notifications {h' : Host} (hr : Runs [] h h') : Round h h'

/-- A sequence of rounds leads from one state to another one. -/
abbrev Rounds : Host → Host → Prop := Relation.ReflTransGen Round

section

variable {h h' : Host} {s : List Stage} {c : CallId} {p : PendingId} {m : MessageId}
  {w : WrapperId} {reaction : Reaction} {run : Reacting}

/-! ## What runs and rounds are made of -/

instance (s : List Stage) : IsPreorder Host (Runs s) where
  refl _ := .refl
  trans _ _ _ hab hbc := Relation.ReflTransGen.trans hab hbc

instance (w : WrapperId) (s : List Stage) : AdmitsSteps (Runs (.reacting w :: s)) :=
  admitsSteps_of_le fun _ _ hh => .single (.act hh)

instance : AdmitsSteps Rounds := admitsSteps_of_le fun _ _ hh => .single (.aside hh)

theorem runs_idle {α : Type} (hs : Stage.AreFree s) {x : StateM Host α} (hx : Moves Idle x) :
    Moves (Runs s) x := by
  intro h
  cases s with
  | nil => exact .single (.idle (hx h))
  | cons stage s =>
      cases stage with
      | reacting w => exact .single (.act (hx h).aside)
      | _ => exact hs.elim

/-! ## The notify function -/

/-- What the notify function does about the reply that it has found in the call. -/
def Host.attend (run : Reacting) (p : PendingId) (reaction : Reaction) :
    Option MessageId → StateM Host Unit
  | none => do
    record (.warned "D-Bus notify function was called for an incomplete pending call")
    record (.logged .warning "notify function called for an incomplete pending call" none)
    unlock
  | some m => do
    let w ← receive m reaction.id?
    react run p w m reaction
    leave
    letGoWrapper w

theorem deliver_eq_attend (run : Reacting) (c : CallId) (p : PendingId) :
    deliver run c p = (do
      lock
      let reaction ← takeSlot p
      let reply ← stealReply c
      attend run p reaction reply) := by
  rw [deliver]
  refine bind_congr fun _ => bind_congr fun reaction => bind_congr fun reply => ?_
  cases reply with
  | none => rfl
  | some m => rfl

/-- Without a reply there is a warning, and the notify function is over. -/
theorem course_attend_none (run : Reacting) (p : PendingId) (reaction : Reaction) :
    Course (h, .missing :: s) (((attend run p reaction none).run h).2, s) := by
  have hwarned : Advance (h, .missing :: s) (((record (.warned
      "D-Bus notify function was called for an incomplete pending call")).run h).2,
      .missing :: s) := .warn trivial
  have hlogged : ∀ k : Host, Advance (k, .missing :: s) (((record (.logged .warning
      "notify function called for an incomplete pending call" none)).run k).2,
      .missing :: s) := fun _ => .warn trivial
  exact ((Relation.ReflTransGen.single hwarned).tail (hlogged _)).tail .quit

section

-- what handlers do is known to be part of runs of notifications
variable (hrun : ∀ w s n actions, Moves (Runs (.reacting w :: s)) (run w n actions))

include hrun

/-- The handler is started, if there is one, and runs. -/
theorem course_react :
    Course (h, .wrapped p reaction w :: s)
      (((react run p w m reaction).run h).2, .reacting w :: s) := by
  cases reaction with
  | absent => exact .single (.pass rfl)
  | inert =>
      have hlogged : Moves Aside (record (.logged .error handlerFailure FaultKind.type.name)) :=
        spares_record trivial
      exact (Relation.ReflTransGen.single (.pass rfl)).tail (.act (hlogged h))
  | handler id actions =>
      have hhandler : Moves (Runs (.reacting w :: s)) (runHandler run p w m id actions) :=
        moves_runHandler (hrun w s) p m id actions
      exact Relation.ReflTransGen.head .start (hhandler _)

/-- With a reply, the notify function gets a wrapper, lets the handler run, and leaves. -/
theorem course_attend_some (hs : Stage.AreFree s) : Course (h, .stolen p reaction m :: s)
      (((attend run p reaction (some m)).run h).2, s) := by
  let received := (receive m reaction.id?).run h
  let reacted := ((react run p received.1 m reaction).run received.2).2
  have hwrap : Advance (h, .stolen p reaction m :: s)
      (received.2, .wrapped p reaction received.1 :: s) := .wrap
  have hreact : Course (received.2, .wrapped p reaction received.1 :: s)
      (reacted, .reacting received.1 :: s) := course_react hrun
  have hleave : Advance (reacted, .reacting received.1 :: s) ((leave.run reacted).2, s) := .leave
  have hletGo : Moves (Runs s) (letGoWrapper received.1) := runs_idle hs (idle_letGoWrapper _)
  have hleft : Course (h, .stolen p reaction m :: s) ((leave.run reacted).2, s) :=
    (hreact.tail hleave).head hwrap
  exact hleft.trans (hletGo _)

/-- From the moment it has taken the lock, the notify function is in progress until it is left. -/
theorem course_deliver (hs : Stage.AreFree s) (c : CallId) (p : PendingId) :
    Course ((lock.run h).2, .entered c p :: s) (((deliver run c p).run h).2, s) := by
  let locked := (lock.run h).2
  let taken := (takeSlot p).run locked
  have htake : Advance (locked, .entered c p :: s) (taken.2, .emptied c p taken.1 :: s) := .take
  have hdeliver : ((deliver run c p).run h).2 =
      ((attend run p taken.1 ((stealReply c).run taken.2).1).run
        ((stealReply c).run taken.2).2).2 := by
    rw [deliver_eq_attend]
    rfl
  rw [hdeliver]
  apply Relation.ReflTransGen.head htake
  cases hreply : ((stealReply c).run taken.2).1 with
  | none => exact (course_attend_none run p taken.1).head (.miss hreply)
  | some m => exact (course_attend_some hrun hs).head (.steal hreply)

/-- A call of the notify function is a run of notifications, if a notification may begin. -/
theorem runs_deliver (hs : Stage.AreFree s) (c : CallId) (p : PendingId) :
    Moves (Runs s) (deliver run c p) := by
  intro h
  have hdeliver : Course ((lock.run h).2, .entered c p :: s) (((deliver run c p).run h).2, s) :=
    course_deliver hrun hs c p
  exact hdeliver.head (.enter hs c p)

theorem runs_notify (hs : Stage.AreFree s) (c : CallId) (r : Registration) :
    Moves (Runs s) (notify run c r) := by
  have hnotified : Moves (Runs s) (record (.notified c r.data)) :=
    runs_idle hs (spares_record ⟨trivial, rfl⟩)
  unfold notify Callbacks.notify
  split
  · refine hnotified.bind fun _ => ?_
    cases r.data with
    | slot p => exact runs_deliver hrun hs c p
    | note x => exact moves_pure _
  · exact moves_pure _

theorem runs_complete (hs : Stage.AreFree s) (c : CallId) : Moves (Runs s) (complete run c) := by
  have hcompleted : Moves (Runs s) (record (.completed c)) :=
    runs_idle hs (spares_record ⟨trivial, rfl⟩)
  have hmarked : Moves (Runs s) (modifyCall c fun call => { call with completed := true }) :=
    runs_idle hs fun _ => spares_of_trace_eq rfl rfl rfl
  refine Moves.get fun h => ?_
  dsimp only
  split
  · exact hcompleted.bind fun _ => hmarked.bind fun _ =>
      (runs_notify hrun hs c _).bind fun _ => moves_pure _
  · exact moves_pure _

end

/-! ## Handlers and sessions -/

/-- The induction is on how deep handlers may still nest. -/
theorem runs_reactWithin (depth : Nat) (w : WrapperId) (s : List Stage) (n : Nat)
    (actions : List Action) : Moves (Runs (.reacting w :: s)) (reactWithin depth w n actions) := by
  induction depth generalizing w s n actions with
  | zero => exact moves_pure _
  | succ depth ih =>
      have hblocked : ∀ c, Moves Aside (record (.blocked c)) := fun c => spares_record trivial
      have hkeep : ∀ name, Moves Aside (assign name (.wrapper w)) :=
        fun name => moves_assign name (by simp)
      apply moves_runActions
      · exact moves_step (fun c => (hblocked c).mono fun _ _ hh => .single (.act hh))
          (runs_complete ih trivial)
      · exact fun name => (hkeep name).mono fun _ _ hh => .single (.act hh)

/-- A step of a session is a sequence of rounds. -/
theorem rounds_step (n : Nat) (step : Step) :
    Moves Rounds (step.perform (reactWithin n)).run := by
  have hblocked : ∀ c, Moves Aside (record (.blocked c)) := fun c => spares_record trivial
  refine moves_step (fun c => (hblocked c).mono fun _ _ hh => .single (.aside hh))
    (fun c h => ?_) step
  exact .single (.notifications (runs_complete (runs_reactWithin n) (s := []) trivial c h))

theorem Rounds.lockDepth_eq (hr : Rounds h h') : h'.lockDepth = h.lockDepth := by
  induction hr with
  | refl => rfl
  | tail _ hround ih =>
      refine Eq.trans ?_ ih
      cases hround with
      | aside hh => exact hh.lockDepth
      | notifications hr => exact (Course.counts hr).depth _ rfl

/-! ## The lock is held around replies -/

/-- What holds of the host lock in all runs of notifications that begin in a state. -/
structure Host.GuardsReplies (h : Host) : Prop where
  /-- At any time the lock is held as often as before the run, and once more for each notify
  function in progress. -/
  depth : ∀ k s, Course (h, []) (k, s) → k.lockDepth = h.lockDepth + s.length
  /-- Counted from the events, too, the lock is held once for each notify function in progress,
  and it was held whenever a reply was taken out or wrapped or a handler started. -/
  events : ∀ k s, Course (h, []) (k, s) → ∃ es, k.trace = h.trace ++ es ∧
    Event.AreGuarded es s.length
  /-- The deliveries in progress are those of the notify functions that have got a wrapper. -/
  deliveries : ∀ k s, Course (h, []) (k, s) →
    k.frames.map Frame.wrapper = s.filterMap Stage.wrapper? ++ h.frames.map Frame.wrapper
  /-- As long as it is held no more often than before the run, the next step neither takes out
  a reply, nor wraps one, nor starts a handler, and begins or ends no delivery. -/
  unheld : ∀ k s, Course (h, []) (k, s) → k.lockDepth = h.lockDepth → ∀ k' s',
    Advance (k, s) (k', s') → k'.frames = k.frames ∧
      ∃ es, k'.trace = k.trace ++ es ∧ ∀ e ∈ es, e.handlesReply = false
  /-- While a notify function is in progress, nobody else can have the lock. -/
  refused : ∀ k s, Course (h, []) (k, s) → s ≠ [] → ∀ run,
    ((Step.perform run (.call .tryLock)).run.run k).1 = .ok (.flag false)
  /-- The notify function takes the lock first.  What follows is part of such a run, with the
  notify function in progress until it is left, whether or not there are a reply and a handler
  and whatever the handler does. -/
  notification : ∀ n c p s, Stage.AreFree s → Course ((lock.run h).2, .entered c p :: s)
    (((deliver (reactWithin n) c p).run h).2, s)
  /-- What a handler does is part of such a run, and its notify function stays in progress. -/
  handler : ∀ n w s k actions,
    Course (h, .reacting w :: s) (((reactWithin n w k actions).run h).2, .reacting w :: s)
  /-- A reply that comes in is such a run, with no notify function in progress in the end. -/
  completion : ∀ n c, Course (h, []) (((complete (reactWithin n) c).run h).2, [])
  /-- After an outermost notification the lock is held as often as before: it has been taken at
  the beginning and given back as often as it has been taken. -/
  restored : ∀ n c p, ((deliver (reactWithin n) c p).run h).2.lockDepth = h.lockDepth ∧
    ∃ es, ((deliver (reactWithin n) c p).run h).2.trace = h.trace ++ .locked :: es ∧
      Event.AreGuarded (.locked :: es) 0
  /-- Whatever else a session does is done aside. -/
  step : ∀ n (step : Step), Rounds h ((step.perform (reactWithin n)).run.run h).2 ∧
    ((step.perform (reactWithin n)).run.run h).2.lockDepth = h.lockDepth

theorem Course.depth (hc : Course (h, []) (h', s)) : h'.lockDepth = h.lockDepth + s.length :=
  hc.counts.depth _ rfl

theorem Course.guarded (hc : Course (h, []) (h', s)) :
    ∃ es, h'.trace = h.trace ++ es ∧ Event.AreGuarded es s.length := by
  obtain ⟨es, htrace, hholds⟩ := hc.counts.trace
  exact ⟨es, htrace, Event.areGuarded_of_holdsAfter hholds⟩

theorem Host.guardsReplies (h : Host) : h.GuardsReplies where
  depth _ _ hc := hc.depth
  events _ _ hc := hc.guarded
  deliveries _ _ hc := hc.deliveries rfl
  unheld k s hc hk k' s' ha := by
    have hdepth := hc.depth
    obtain rfl : s = [] := List.eq_nil_of_length_eq_zero (by omega)
    exact ha.of_nil
  refused k s hc hs run := by
    have hlength : 0 < s.length := List.length_pos_iff.mpr hs
    have hdepth := hc.depth
    have hheld : (k.lockDepth == 0) = false := by
      rw [beq_eq_false_iff_ne]
      omega
    change Except.ok (Answer.flag (k.lockDepth == 0)) = _
    rw [hheld]
  notification n c p s hs := course_deliver (runs_reactWithin n) hs c p
  handler n w s k actions := runs_reactWithin n w s k actions h
  completion n c := runs_complete (runs_reactWithin n) (s := []) trivial c h
  restored n c p := by
    have hrest : Course ((lock.run h).2, [.entered c p]) (((deliver (reactWithin n) c p).run h).2,
        []) := course_deliver (runs_reactWithin n) (s := []) trivial c p
    have hc : Course (h, []) (((deliver (reactWithin n) c p).run h).2, []) :=
      hrest.head (.enter (s := []) trivial c p)
    obtain ⟨es, htrace, hholds⟩ := hrest.counts.trace
    have hlocked : (lock.run h).2.trace = h.trace ++ [.locked] := rfl
    refine ⟨hc.depth, es, ?_, Event.areGuarded_of_holdsAfter hholds⟩
    rw [htrace, hlocked, List.append_assoc]
    rfl
  step n step := ⟨rounds_step n step h, (rounds_step n step h).lockDepth_eq⟩

/-- In whatever state runs of notifications begin, the lock is held around the handling of
replies and at no other time; after a whole session it is held by nobody. -/
theorem Script.lock_held_around_replies (v : Validator) (f : Failures) :
    (∀ h : Host, h.GuardsReplies) ∧
      ∀ steps, (Script.run ⟨v, f, steps⟩).2.lockDepth = 0 := by
  constructor
  · exact Host.guardsReplies
  · intro steps
    have hrounds : Rounds (.start v f) (Script.run ⟨v, f, steps⟩).2 :=
      moves_reportSteps (rounds_step _) steps _
    exact hrounds.lockDepth_eq

end

end DBusHost
