import DBusHost.Proofs.Session.Turns

/-!
# The host lock

The notify function of pending calls holds the host lock while it handles a reply.  A handler
may let further replies come in, so that several notify functions are in progress at a time,
each of them inside the handler of the one before, and each of them holds the lock once more.

A run of notifications is looked at step by step here, together with the notify functions that
are in progress and how far each of them has come.  A step is the computation of the session
itself, except that what a handler does by itself, and what happens between notifications, is
left open.
-/

namespace DBusHost

namespace Event

/-- The event is part of the handling of a reply: the reply is taken out of its call, it gets a
wrapper, or a handler starts on it. -/
def handlesReply : Event → Bool
  | .stolen .. | .adopted (.message _) | .started .. => true
  | _ => false

/-- How often the lock is held after an event, if it was held so often before.  The lock cannot
be given back unless it is held, and no reply may be handled unless it is. -/
def holds : Event → Nat → Option Nat
  | .locked, n => some (n + 1)
  | .unlocked, n => if n = 0 then none else some (n - 1)
  | e, n => if e.handlesReply && n == 0 then none else some n

/-- How often the lock is held after some events, if it was held so often before them. -/
def holdsAfter (es : List Event) (n : Nat) : Option Nat := es.foldlM (fun n e => e.holds n) n

theorem holdsAfter_append (es fs : List Event) (n : Nat) :
    holdsAfter (es ++ fs) n = (holdsAfter es n).bind (holdsAfter fs) := List.foldlM_append

theorem holdsAfter_of_forall {es : List Event} {n : Nat} (hes : ∀ e ∈ es, e.holds n = some n) :
    holdsAfter es n = some n := by
  induction es with
  | nil => rfl
  | cons e es ih =>
      have hfirst : e.holds n = some n := hes e List.mem_cons_self
      rw [holdsAfter, List.foldlM_cons, hfirst]
      exact ih fun d hd => hes d (List.mem_cons_of_mem _ hd)

/-- The lock is held so often after the events, if it was not held before them, and it was held
at each event by which a reply was handled. -/
structure AreGuarded (es : List Event) (n : Nat) : Prop where
  held : holdsAfter es 0 = some n
  handled : ∀ before e after, es = before ++ e :: after → e.handlesReply = true →
    ∃ m, holdsAfter before 0 = some (m + 1)

theorem holds_eq {e : Event} (hlocked : e ≠ .locked) (hunlocked : e ≠ .unlocked) (n : Nat) :
    e.holds n = if e.handlesReply && n == 0 then none else some n := by
  cases e <;> first | contradiction | rfl

theorem holds_zero {e : Event} (he : e.handlesReply = true) : e.holds 0 = none := by
  have hne : e ≠ .locked ∧ e ≠ .unlocked := by
    constructor <;> rintro rfl <;> exact Bool.false_ne_true he
  rw [holds_eq hne.1 hne.2, he]
  rfl

theorem areGuarded_of_holdsAfter {es : List Event} {n : Nat} (hes : holdsAfter es 0 = some n) :
    AreGuarded es n where
  held := hes
  handled before e after hsplit he := by
    rw [hsplit, holdsAfter_append, Option.bind_eq_some_iff] at hes
    obtain ⟨held, hbefore, hrest⟩ := hes
    obtain ⟨m, hm, -⟩ := Option.bind_eq_some_iff.mp hrest
    have hpos : held ≠ 0 := by
      rintro rfl
      exact absurd ((holds_zero he).symm.trans hm) (by simp)
    obtain ⟨m, rfl⟩ := Nat.exists_eq_succ_of_ne_zero hpos
    exact ⟨m, hbefore⟩

/-- The event neither takes nor gives back the lock, and starts no handler. -/
def IsAside : Event → Prop
  | .locked | .unlocked | .started .. => False
  | _ => True

/-- The event has nothing to do with the lock or with the handling of replies. -/
def IsIdle (e : Event) : Prop := e.IsAside ∧ e.handlesReply = false

theorem IsCalm.isIdle {e : Event} (he : e.IsCalm) : e.IsIdle := by
  cases e <;> first | exact he.elim | exact ⟨trivial, rfl⟩

theorem IsOfCall.isAside {e : Event} (he : e.IsOfCall) : e.IsAside := by
  cases e <;> first | exact he.elim | trivial

theorem IsAside.holds {e : Event} (he : e.IsAside) {n : Nat} (hn : 0 < n ∨ e.handlesReply = false) :
    e.holds n = some n := by
  have hallowed : ¬ (e.handlesReply && n == 0) = true := by
    rcases hn with hn | hn
    · simp [Nat.ne_of_gt hn]
    · simp [hn]
  have hne : e ≠ .locked ∧ e ≠ .unlocked := by
    constructor <;> rintro rfl <;> exact he
  rw [holds_eq hne.1 hne.2, if_neg hallowed]

theorem holds_started (p : PendingId) (id : String) (w : WrapperId) (n : Nat) :
    (Event.started p id w).holds (n + 1) = some (n + 1) := rfl

end Event

namespace Host

variable {α : Type} {E : Event → Prop} {h h' h'' : Host} {n n' n'' : Nat}

/-! ## What leaves the lock alone -/

/-- The lock and the deliveries in progress stay as they are, and what happens on the way is of
one kind. -/
structure Spares (E : Event → Prop) (h h' : Host) : Prop where
  lockDepth : h'.lockDepth = h.lockDepth
  frames : h'.frames = h.frames
  trace : ∃ es, h'.trace = h.trace ++ es ∧ ∀ e ∈ es, E e

/-- What a handler does by itself. -/
abbrev Aside : Host → Host → Prop := Spares Event.IsAside

/-- What happens between notifications. -/
abbrev Idle : Host → Host → Prop := Spares Event.IsIdle

instance : IsPreorder Host (Spares E) where
  refl h := ⟨rfl, rfl, [], by simp⟩
  trans _ _ _ hab hbc := ⟨hbc.lockDepth.trans hab.lockDepth, hbc.frames.trans hab.frames,
    Event.appended_trans hab.trace hbc.trace⟩

theorem spares_of_trace_eq (hlock : h'.lockDepth = h.lockDepth) (hframes : h'.frames = h.frames)
    (htrace : h'.trace = h.trace) : Spares E h h' :=
  ⟨hlock, hframes, [], by simpa using htrace, by simp⟩

theorem spares_record {e : Event} (he : E e) : Moves (Spares E) (record e) :=
  fun _ => ⟨rfl, rfl, [e], rfl, by simpa using he⟩

theorem Spares.mono {F : Event → Prop} (hh : Spares E h h') (hEF : ∀ e, E e → F e) :
    Spares F h h' := by
  obtain ⟨es, htrace, hall⟩ := hh.trace
  exact ⟨hh.lockDepth, hh.frames, es, htrace, fun e he => hEF e (hall e he)⟩

theorem Idle.aside (hh : Idle h h') : Aside h h' := hh.mono fun _ he => he.1

theorem Calm.idle (hh : Calm h h') : Idle h h' := by
  obtain ⟨es, htrace, hcalm⟩ := hh.trace
  exact ⟨hh.lockDepth, hh.frames, es, htrace, fun e he => (hcalm e he).isIdle⟩

theorem spares_countBy (r : Resource) (i : Int) : Moves (Spares E) (countBy r i) :=
  fun _ => spares_of_trace_eq rfl rfl rfl

theorem aside_adopt (r : Resource) : Moves Aside (adopt r) := by
  intro h
  rcases adopt_cases r h with ⟨w, -, hrun⟩ | ⟨-, hrun⟩
  · rw [hrun]
    exact ⟨rfl, rfl, [.adopted r, .released r], List.append_assoc .., by simp [Event.IsAside]⟩
  · rw [hrun]
    exact ⟨rfl, rfl, [.adopted r], rfl, by simp [Event.IsAside]⟩

theorem idle_letGoWrapper (w : WrapperId) : Moves Idle (letGoWrapper w) := by
  intro h
  rcases letGoWrapper_cases w h with ⟨hrun, -⟩ | ⟨r, -, -, hrun⟩
  · rw [hrun]
    exact refl_of Idle h
  · rw [hrun]
    exact ⟨rfl, rfl, [.released r], rfl, by simp [Event.IsIdle, Event.IsAside, Event.handlesReply]⟩

instance : AdmitsCalls Aside where
  serene hserene := hserene.idle.aside
  record he := spares_record he.isAside
  change _ _ _ _ _ := spares_of_trace_eq rfl rfl rfl

instance : AdmitsChanges Aside where
  create r := (spares_countBy r 1).bind fun _ => spares_record trivial
  share r := (spares_countBy r 1).bind fun _ => spares_record trivial
  adopt := aside_adopt
  letGoWrapper w h := (idle_letGoWrapper w h).aside
  name _ _ _ _ := spares_of_trace_eq rfl rfl rfl
  forget _ _ := spares_of_trace_eq rfl rfl rfl
  close := moves_closePending

instance : AdmitsSteps Aside where
  record := AdmitsCalls.record
  change := AdmitsCalls.change
  nameHandle name c h := by
    have hnamed : Moves Aside _ := moves_named name (.handle c) (h.names.get? name)
    have hname : Aside h { h with names := h.names.put name (.handle c) } :=
      spares_of_trace_eq rfl rfl rfl
    exact trans_of Aside hname (hnamed _)

/-! ## Counting holds -/

/-- The lock is held as often as there are notify functions in progress, not counting what was
held before, if that was so in the first state; and what happens on the way agrees with that. -/
structure Counts (h : Host) (n : Nat) (h' : Host) (n' : Nat) : Prop where
  depth : ∀ base, h.lockDepth = base + n → h'.lockDepth = base + n'
  trace : ∃ es, h'.trace = h.trace ++ es ∧ Event.holdsAfter es n = some n'

theorem counts_self (h : Host) (n : Nat) : Counts h n h n where
  depth _ := id
  trace := ⟨[], (List.append_nil _).symm, rfl⟩

theorem Counts.trans (hh : Counts h n h' n') (hh' : Counts h' n' h'' n'') :
    Counts h n h'' n'' where
  depth base hbase := hh'.depth base (hh.depth base hbase)
  trace := by
    obtain ⟨es, htrace, hholds⟩ := hh.trace
    obtain ⟨fs, htrace', hholds'⟩ := hh'.trace
    refine ⟨es ++ fs, by rw [htrace', htrace, List.append_assoc], ?_⟩
    rw [Event.holdsAfter_append, hholds]
    exact hholds'

theorem counts_record {e : Event} (he : e.holds n = some n) :
    Counts h n ((record e).run h).2 n where
  depth _ := id
  trace := ⟨[e], rfl, Event.holdsAfter_of_forall (by simpa using he)⟩

theorem Spares.counts (hh : Spares E h h') (hE : ∀ e, E e → e.holds n = some n) :
    Counts h n h' n where
  depth _ hbase := hh.lockDepth.trans hbase
  trace := by
    obtain ⟨es, htrace, hall⟩ := hh.trace
    exact ⟨es, htrace, Event.holdsAfter_of_forall fun e he => hE e (hall e he)⟩

theorem Idle.counts (hh : Idle h h') : Counts h n h' n :=
  Spares.counts hh fun _ he => he.1.holds (.inr he.2)

theorem Aside.counts (hh : Aside h h') : Counts h (n + 1) h' (n + 1) :=
  Spares.counts hh fun _ he => he.holds (.inl n.succ_pos)

theorem counts_lock : Counts h n (lock.run h).2 (n + 1) where
  depth _ hbase := congrArg Nat.succ hbase
  trace := ⟨[.locked], rfl, rfl⟩

theorem counts_unlock : Counts h (n + 1) (unlock.run h).2 n where
  depth base hbase := by
    change h.lockDepth - 1 = base + n
    omega
  trace := ⟨[.unlocked], rfl, rfl⟩

theorem counts_receive (m : MessageId) (handler : Option String) :
    Counts h (n + 1) ((receive m handler).run h).2 (n + 1) where
  depth := (Aside.counts (aside_adopt (.message m) h)).depth
  trace := (Aside.counts (aside_adopt (.message m) h)).trace

end Host

/-! ## Notifications step by step -/

/-- How far a notify function of pending calls has come. -/
inductive Stage where
  /-- It has taken the lock. -/
  | entered (c : CallId) (p : PendingId)
  /-- It has taken the reaction out of the slot. -/
  | emptied (c : CallId) (p : PendingId) (reaction : Reaction)
  /-- It has found no reply in the call. -/
  | missing
  /-- It has taken the reply out of the call. -/
  | stolen (p : PendingId) (reaction : Reaction) (m : MessageId)
  /-- It has got a wrapper for the reply. -/
  | wrapped (p : PendingId) (reaction : Reaction) (w : WrapperId)
  /-- The handler runs, if there is one. -/
  | reacting (w : WrapperId)

/-- The wrapper that the notify function has got for the reply. -/
def Stage.wrapper? : Stage → Option WrapperId
  | .wrapped _ _ w | .reacting w => some w
  | _ => none

/-- A notification may begin: no notify function is in progress, or the handler of the innermost
one runs. -/
def Stage.AreFree : List Stage → Prop
  | [] | .reacting _ :: _ => True
  | _ => False

open Host

/-- One step of a run of notifications, on the state and the notify functions in progress, the
innermost one first. -/
inductive Advance : Host × List Stage → Host × List Stage → Prop
  /-- Between notifications the native library does something else. -/
  | idle {h h' : Host} (hh : Idle h h') : Advance (h, []) (h', [])
  /-- The handler of the innermost notify function does something. -/
  | act {h h' : Host} {w : WrapperId} {s : List Stage} (hh : Aside h h') :
      Advance (h, .reacting w :: s) (h', .reacting w :: s)
  | enter {h : Host} {s : List Stage} (hs : Stage.AreFree s) (c : CallId) (p : PendingId) :
      Advance (h, s) ((lock.run h).2, .entered c p :: s)
  | take {h : Host} {s : List Stage} {c : CallId} {p : PendingId} :
      Advance (h, .entered c p :: s)
        (((takeSlot p).run h).2, .emptied c p ((takeSlot p).run h).1 :: s)
  | miss {h : Host} {s : List Stage} {c : CallId} {p : PendingId} {reaction : Reaction}
      (hm : ((stealReply c).run h).1 = none) :
      Advance (h, .emptied c p reaction :: s) (((stealReply c).run h).2, .missing :: s)
  /-- It is said that the reply was missing. -/
  | warn {h : Host} {s : List Stage} {e : Event} (he : e.IsCalm) :
      Advance (h, .missing :: s) (((record e).run h).2, .missing :: s)
  | quit {h : Host} {s : List Stage} : Advance (h, .missing :: s) ((unlock.run h).2, s)
  | steal {h : Host} {s : List Stage} {c : CallId} {p : PendingId} {reaction : Reaction}
      {m : MessageId} (hm : ((stealReply c).run h).1 = some m) :
      Advance (h, .emptied c p reaction :: s)
        (((stealReply c).run h).2, .stolen p reaction m :: s)
  | wrap {h : Host} {s : List Stage} {p : PendingId} {reaction : Reaction} {m : MessageId} :
      Advance (h, .stolen p reaction m :: s) (((receive m reaction.id?).run h).2,
        .wrapped p reaction ((receive m reaction.id?).run h).1 :: s)
  | start {h : Host} {s : List Stage} {p : PendingId} {id : String} {actions : List Action}
      {w : WrapperId} : Advance (h, .wrapped p (.handler id actions) w :: s)
        (((record (.started p id w)).run h).2, .reacting w :: s)
  /-- There is no handler to start. -/
  | pass {h : Host} {s : List Stage} {p : PendingId} {reaction : Reaction} {w : WrapperId}
      (hr : reaction.id? = none) : Advance (h, .wrapped p reaction w :: s) (h, .reacting w :: s)
  | leave {h : Host} {s : List Stage} {w : WrapperId} :
      Advance (h, .reacting w :: s) ((leave.run h).2, s)

/-- A run of notifications. -/
abbrev Course : Host × List Stage → Host × List Stage → Prop := Relation.ReflTransGen Advance

section

variable {h h' : Host} {s s' : List Stage}

/-- A step takes the lock as it begins a notification, gives it back as it ends one, and handles
replies only in between. -/
theorem Advance.counts {a b : Host × List Stage} (hab : Advance a b) :
    Counts a.1 a.2.length b.1 b.2.length := by
  cases hab with
  | idle hh => exact Idle.counts hh
  | act hh => exact Aside.counts hh
  | enter hs c p => exact counts_lock
  | @take h s c p =>
      have htake : Moves Aside (takeSlot p) := moves_takeSlot p
      exact Aside.counts (htake h)
  | @miss h s c p reaction hm =>
      have hsteal : Moves Aside (stealReply c) := moves_stealReply c
      exact Aside.counts (hsteal h)
  | @warn h s e he =>
      have hidle : Moves Idle (record e) := spares_record he.isIdle
      exact Idle.counts (hidle h)
  | quit => exact counts_unlock
  | @steal h s c p reaction m hm =>
      have hsteal : Moves Aside (stealReply c) := moves_stealReply c
      exact Aside.counts (hsteal h)
  | wrap => exact counts_receive _ _
  | start => exact counts_record (Event.holds_started _ _ _ _)
  | pass hr => exact counts_self _ _
  | leave => exact ⟨counts_unlock.depth, counts_unlock.trace⟩

theorem Course.counts {a b : Host × List Stage} (hab : Course a b) :
    Counts a.1 a.2.length b.1 b.2.length := by
  induction hab with
  | refl => exact counts_self _ _
  | tail _ hstep ih => exact ih.trans hstep.counts

/-- The deliveries in progress are those of the notify functions that have got a wrapper. -/
theorem Advance.deliveries {a b : Host × List Stage} (hab : Advance a b) {base : List WrapperId}
    (ha : a.1.frames.map Frame.wrapper = a.2.filterMap Stage.wrapper? ++ base) :
    b.1.frames.map Frame.wrapper = b.2.filterMap Stage.wrapper? ++ base := by
  have hsteal : ∀ c h, ((stealReply c).run h).2.frames = h.frames :=
    fun c h => (moves_stealReply (R := Aside) c h).frames
  cases hab with
  | idle hh => exact (congrArg _ hh.frames).trans ha
  | act hh => exact (congrArg _ hh.frames).trans ha
  | enter hs c p => exact ha
  | take => exact ha
  | miss hm => exact (congrArg _ (hsteal _ _)).trans ha
  | warn he => exact ha
  | quit => exact ha
  | steal hm => exact (congrArg _ (hsteal _ _)).trans ha
  | wrap =>
      change (Host.frames _).map _ = _
      rw [frames_receive]
      exact congrArg (List.cons _) ha
  | start => exact ha
  | pass hr => exact ha
  | leave =>
      change (Host.frames _).tail.map _ = _
      rw [List.map_tail]
      exact congrArg List.tail ha

theorem Course.deliveries {a b : Host × List Stage} (hab : Course a b) {base : List WrapperId}
    (ha : a.1.frames.map Frame.wrapper = a.2.filterMap Stage.wrapper? ++ base) :
    b.1.frames.map Frame.wrapper = b.2.filterMap Stage.wrapper? ++ base := by
  induction hab with
  | refl => exact ha
  | tail _ hstep ih => exact hstep.deliveries ih

/-- While no notify function is in progress, a step handles no reply and begins or ends no
delivery. -/
theorem Advance.of_nil (ha : Advance (h, []) (h', s')) : h'.frames = h.frames ∧
    ∃ es, h'.trace = h.trace ++ es ∧ ∀ e ∈ es, e.handlesReply = false := by
  cases ha with
  | idle hh =>
      obtain ⟨es, htrace, hall⟩ := hh.trace
      exact ⟨hh.frames, es, htrace, fun e he => (hall e he).2⟩
  | enter hs c p => exact ⟨rfl, [.locked], rfl, by simp [Event.handlesReply]⟩

end

end DBusHost
