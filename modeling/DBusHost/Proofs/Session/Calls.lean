import DBusHost.Proofs.Session.Parts

/-!
# What steps on calls are made of

What is done to the calls there are, apart from the delivery of replies, is made of changes to
single calls and pending calls and of a few sorts of events.  A preorder that admits these holds
from every state to the one after a cancellation or whatever else is done to a call.  To make
calls and to register for their replies takes changes to the lists in which they are kept as
well.

If it admits as well what the other steps are made of, it holds for every step, as soon as it
holds for the replies that come in meanwhile.
-/

namespace DBusHost

open Host

/-- The event is about what is done to a call, and not about the delivery of its reply. -/
def Event.IsOfCall : Event → Prop
  | .notifySet .. | .cancelled _ | .unreferenced _ | .freed .. | .stolen .. => True
  | _ => False

/-- A reply may come in by the step. -/
def CallStep.MayDeliver : CallStep → Prop
  | replyArrives _ | block _ => True
  | _ => False

/-- A reply may come in by the step. -/
def Step.MayDeliver : Step → Prop
  | call s => s.MayDeliver
  | _ => False

/-- The relation holds from one state to another one if a single change to one of the calls there
are leads there.  The change keeps the kind of a call, undoes no completion and puts no reaction
into a slot. -/
class AdmitsTending (R : Host → Host → Prop) : Prop extends AdmitsSerene R where
  record {e : Event} (he : e.IsOfCall) : Moves R (Host.record e)
  modifyCall {f : Call → Call} (c : CallId) (hkind : ∀ call, (f call).kind = call.kind)
    (hdone : ∀ call, call.completed = true → (f call).completed = true) :
    Moves R (Host.modifyCall c f)
  modifyPending {f : Pending → Pending} (p : PendingId)
    (hslot : ∀ pending, (f pending).slot = pending.slot ∨ (f pending).slot = .absent) :
    Moves R (Host.modifyPending p f)

/-- The relation holds from one state to another one if a single change to calls, to pending
calls or to what is known of them leads there. -/
class AdmitsCalls (R : Host → Host → Prop) : Prop extends AdmitsSerene R where
  record {e : Event} (he : e.IsOfCall) : Moves R (Host.record e)
  change (h : Host) (calls : List Call) (pendings : List Pending) (lines : Table String CallId)
    (waiting : List PendingId) : R h { h with calls, pendings, lines, waiting }

/-- The relation holds from one state to another one if a single operation leads there, be it
on calls or on anything else. -/
class AdmitsSteps (R : Host → Host → Prop) : Prop extends Admits R, AdmitsCalls R where
  nameHandle (name : String) (c : CallId) : Moves R (Host.assign name (.handle c))

section

variable {α : Type} {R S : Host → Host → Prop}

/-- A preorder that holds wherever another one does admits what the other one admits. -/
theorem admitsSteps_of_le [AdmitsSteps R] [IsPreorder Host S] (hRS : ∀ h h', R h h' → S h h') :
    AdmitsSteps S where
  serene hserene := hRS _ _ (AdmitsSerene.serene hserene)
  create r h := hRS _ _ (Admits.create r h)
  share r h := hRS _ _ (Admits.share r h)
  adoptAs name r h := hRS _ _ (Admits.adoptAs name r h)
  assign name _ hw hc h := hRS _ _ (Admits.assign name hw hc h)
  drop name h := hRS _ _ (Admits.drop name h)
  close p h := hRS _ _ (Admits.close p h)
  record he h := hRS _ _ (AdmitsCalls.record he h)
  change h calls pendings lines waiting :=
    hRS _ _ (AdmitsCalls.change h calls pendings lines waiting)
  nameHandle name c h := hRS _ _ (AdmitsSteps.nameHandle name c h)

section

variable [AdmitsTending R]

/-! ## The calls there are -/

theorem moves_takeSlot (p : PendingId) : Moves R (takeSlot p) :=
  Moves.get fun _ => (AdmitsTending.modifyPending p fun _ => .inr rfl).bind fun _ => moves_pure _

theorem registers_unanswered (c : CallId) : unanswered.Registers c R where
  onFree := moves_dropData moves_takeSlot
  freed _ := AdmitsTending.record trivial
  succeeds := moves_serene (serene_succeeds .setNotify)
  notifySet _ := AdmitsTending.record trivial
  registration _ := AdmitsTending.modifyCall c (fun _ => rfl) fun _ => id
  kept _ := AdmitsTending.modifyCall c (fun _ => rfl) fun _ => id

theorem moves_freeData (c : CallId) (r : Registration) : Moves R (freeData c r) :=
  Callbacks.moves_freeData (registers_unanswered c).onFree (registers_unanswered c).freed r

theorem moves_setNotify (c : CallId) (r : Registration) : Moves R (setNotify c r) :=
  (registers_unanswered c).moves_setNotify r

theorem moves_unreference (c : CallId) : Moves R (unreference c) :=
  (registers_unanswered c).moves_unreference (AdmitsTending.record trivial)
    (AdmitsTending.modifyCall c (fun _ => rfl) fun _ => id)

theorem moves_cancelCall (c : CallId) : Moves R (cancelCall c) :=
  moves_cancelCall_of (AdmitsTending.record trivial)
    (AdmitsTending.modifyCall c (fun _ => rfl) fun _ => id)

theorem moves_stealReply (c : CallId) : Moves R (stealReply c) :=
  moves_stealReply_of (fun _ => AdmitsTending.record trivial)
    (AdmitsTending.modifyCall c (fun _ => rfl) fun _ => id)

theorem moves_cancel (p : PendingId) : Moves R (Pending.cancel p) := by
  refine Moves.get fun h => ?_
  dsimp only
  split
  · exact (moves_cancelCall _).bind fun _ => (moves_takeSlot p).discard
  · exact (moves_takeSlot p).discard

theorem moves_closePending (p : PendingId) : Moves R (Pending.close p) := by
  have hgive : Moves R (modifyPending p fun pending => { pending with holding := false }) :=
    AdmitsTending.modifyPending p fun _ => .inl rfl
  refine Moves.get fun h => hgive.bind fun _ => ?_
  dsimp only
  split
  · exact (moves_unreference _).bind fun _ => (moves_takeSlot p).discard
  · exact (moves_takeSlot p).discard

theorem moves_letGoPending (p : PendingId) : Moves R (letGo (.pending p)) := by
  refine Moves.get fun h => ?_
  split
  · exact moves_pure _
  · exact moves_closePending p

/-- Steps on calls by which none is made and no reply comes in. -/
theorem moves_tendingStep {run : Reacting} {s : CallStep} (hs : ¬ s.MayDeliver)
    (hnew : ∀ name reply, s = .newHandle name reply → Moves R (s.perform run).run) :
    Moves R (s.perform run).run := by
  cases s with
  | replyArrives name => exact absurd trivial hs
  | freeData name =>
      exact Session.moves_bind (Session.reads_lineNamed name).of_eq fun c =>
        Session.moves_get fun h => Session.moves_bind (Session.moves_lift
          (moves_freeData c _)) (fun _ => Session.moves_pure _) h
  | cancel name =>
      refine Session.moves_bind (Session.reads_thing name).of_eq fun t => ?_
      cases t with
      | pending p =>
          exact Session.moves_bind (Session.moves_lift (moves_cancel p)) fun _ =>
            Session.moves_pure _
      | handle c =>
          exact Session.moves_bind (Session.reads_attachedCall c).of_eq fun d =>
            Session.moves_bind (Session.moves_lift (moves_cancelCall d)) fun _ =>
            Session.moves_pure _
      | _ => exact Session.moves_throw _
  | block name => exact absurd trivial hs
  | completed name =>
      refine Session.moves_bind (Session.reads_thing name).of_eq fun t => ?_
      cases t with
      | pending p =>
          exact Session.moves_bind (reads_completed p).of_eq fun _ => Session.moves_pure _
      | _ => exact Session.moves_throw _
  | instantiate => exact Session.moves_throw _
  | live => exact Session.moves_get fun h => refl_of R h
  | tryLock => exact Session.moves_get fun h => refl_of R h
  | newHandle name reply => exact hnew name reply rfl
  | setNotify name notifies frees x =>
      exact Session.moves_bind (Session.reads_handleNamed name).of_eq fun c =>
        Session.moves_bind (Session.reads_build x).of_eq fun x =>
        Session.moves_bind (Session.reads_attachedCall c).of_eq fun d =>
        Session.moves_bind (Session.moves_lift (moves_setNotify d _)) fun _ =>
        Session.moves_pure _
  | handleCompleted name =>
      exact Session.moves_bind (Session.reads_handleNamed name).of_eq fun c =>
        Session.moves_bind (Session.reads_attachedCall c).of_eq fun _ =>
        Session.moves_get fun h => refl_of R h
  | stealReply name =>
      exact Session.moves_bind (Session.reads_handleNamed name).of_eq fun c =>
        Session.moves_bind (Session.reads_attachedCall c).of_eq fun d =>
        Session.moves_bind (Session.moves_lift (moves_stealReply d)) fun _ =>
        Session.moves_pure _
  | unreference name =>
      exact Session.moves_bind (Session.reads_handleNamed name).of_eq fun c =>
        Session.moves_bind (Session.moves_lift (moves_unreference c)) fun _ =>
        Session.moves_pure _

end

section

variable [AdmitsCalls R]

theorem moves_modifyCall (c : CallId) (f : Call → Call) : Moves R (modifyCall c f) :=
  fun h => AdmitsCalls.change h (h.calls.modify c f) h.pendings h.lines h.waiting

theorem moves_modifyPending (p : PendingId) (f : Pending → Pending) :
    Moves R (modifyPending p f) :=
  fun h => AdmitsCalls.change h h.calls (h.pendings.modify p f) h.lines h.waiting

instance : AdmitsTending R where
  record := AdmitsCalls.record
  modifyCall c _ _ := moves_modifyCall c _
  modifyPending p _ := moves_modifyPending p _

/-! ## Further calls -/

theorem moves_enlist (c : CallId) (reaction : Reaction) : Moves R (enlist c reaction) :=
  fun h => AdmitsCalls.change h h.calls (h.pendings ++ [⟨c, false, reaction⟩]) h.lines h.waiting

theorem moves_noteLine (name : String) (c : CallId) : Moves R (noteLine name c) :=
  fun h => AdmitsCalls.change h h.calls h.pendings (h.lines.put name c) h.waiting

theorem moves_wait (f : List PendingId → List PendingId) :
    Moves R (modify fun h : Host => { h with waiting := f h.waiting }) :=
  fun h => AdmitsCalls.change h h.calls h.pendings h.lines (f h.waiting)

theorem moves_createCall (call : Call) : Moves R (createCall call) := by
  have hadd : Moves R (modify fun h : Host => { h with calls := h.calls ++ [call] }) :=
    fun h => AdmitsCalls.change h (h.calls ++ [call]) h.pendings h.lines h.waiting
  exact Moves.get fun _ => hadd.bind fun _ => moves_pure _

theorem moves_register (c : CallId) (reaction : Reaction) :
    Moves R (Pending.register c reaction).run := by
  have hlogged : Moves R (record (.logged .debug
      "cannot register notify function, abandoning call" none)) :=
    moves_serene (serene_record trivial)
  have habandon : ∀ p, Moves R (abandon c p) := fun p =>
    hlogged.bind fun _ => (moves_cancelCall c).bind fun _ =>
    (moves_unreference c).bind fun _ => (moves_takeSlot p).discard
  have henlist : Moves R (enlist c reaction) := moves_enlist c reaction
  have hhold : ∀ p, Moves R (modifyPending p fun pending => { pending with holding := true }) :=
    fun p => moves_modifyPending p _
  intro h
  have hset : Moves R (setNotify c ⟨true, true, .slot h.pendings.length⟩) := moves_setNotify c _
  have hasked := hset ((enlist c reaction).run h).2
  rw [run_register, run_enroll]
  rcases hrun : (setNotify c ⟨true, true, .slot h.pendings.length⟩).run
    ((enlist c reaction).run h).2 with ⟨_ | _, h'⟩
  · rw [hrun] at hasked
    exact trans_of R (henlist h) (trans_of R hasked (habandon _ h'))
  · rw [hrun] at hasked
    exact trans_of R (henlist h) (trans_of R hasked (hhold _ h'))

theorem moves_sendForReply (b : String) (m : MessageId) (c : CallId) (ms : Int) :
    Moves R (Session.sendForReply b m c ms).run :=
  Session.moves_sendForReply_of (fun _ _ => AdmitsSerene.serene) (moves_modifyCall c _) b m ms

end

/-! ## Steps -/

variable [AdmitsSteps R] {run : Reacting}

theorem moves_prepareCall (name : String) (kind : CallKind) (reply : Option Message) :
    Moves R (prepareCall name kind reply) := by
  refine (moves_createReply name reply).bind fun _ => ?_
  refine (moves_createCall _).bind fun c => ?_
  exact (moves_noteLine name c).bind fun _ => moves_pure _

theorem moves_blockCall (hblocked : ∀ c, Moves R (record (.blocked c)))
    (hcomplete : ∀ c, Moves R (complete run c)) (c : CallId) : Moves R (blockCall run c) :=
  (hblocked c).bind fun _ => (hcomplete c).discard

theorem moves_block (hblocked : ∀ c, Moves R (record (.blocked c)))
    (hcomplete : ∀ c, Moves R (complete run c)) (p : PendingId) :
    Moves R (Pending.block run p).run := by
  refine Session.moves_bind (reads_openCall p).of_eq fun c => ?_
  refine Session.moves_bind (Session.moves_lift (moves_wait (p :: ·))) fun _ => ?_
  refine Session.moves_bind (Session.moves_lift (moves_blockCall hblocked hcomplete c)) fun _ => ?_
  refine Session.moves_bind (Session.moves_lift (moves_wait List.tail)) fun _ => ?_
  exact Session.moves_lift (moves_letGoPending p)

/-- Steps by which no reply comes in. -/
theorem moves_otherCallStep {s : CallStep} (hs : ¬ s.MayDeliver) : Moves R (s.perform run).run := by
  refine moves_tendingStep hs ?_
  rintro name reply rfl
  exact Session.moves_bind (Session.moves_lift (moves_prepareCall name .native reply))
    fun c => Session.moves_bind (Session.moves_lift (AdmitsSteps.nameHandle name c))
    fun _ => Session.moves_pure _

theorem moves_callStep (hblocked : ∀ c, Moves R (record (.blocked c)))
    (hcomplete : ∀ c, Moves R (complete run c)) (s : CallStep) :
    Moves R (s.perform run).run := by
  by_cases hs : s.MayDeliver
  · cases s with
    | replyArrives name =>
        exact Session.moves_bind (Session.reads_lineNamed name).of_eq fun c =>
          Session.moves_bind (Session.moves_lift (hcomplete c)) fun _ => Session.moves_pure _
    | block name =>
        refine Session.moves_bind (Session.reads_thing name).of_eq fun t => ?_
        cases t with
        | pending p =>
            exact Session.moves_bind (moves_block hblocked hcomplete p) fun _ =>
              Session.moves_pure _
        | handle c =>
            exact Session.moves_bind (Session.reads_attachedCall c).of_eq fun d =>
              Session.moves_bind (Session.moves_lift (moves_blockCall hblocked hcomplete d))
              fun _ => Session.moves_pure _
        | _ => exact Session.moves_throw _
    | _ => exact hs.elim
  · exact moves_otherCallStep hs

/-- Steps by which no reply comes in. -/
theorem moves_otherStep {s : Step} (hs : ¬ s.MayDeliver) : Moves R (s.perform run).run := by
  have hname : ∀ name p, Moves R (assign name (.pending p)) :=
    fun name p => Admits.assign name (by simp) (by simp)
  cases s with
  | message s => exact moves_messageStep s
  | iterator s => exact moves_iteratorStep s
  | call s => exact moves_otherCallStep hs
  | connection s => exact moves_connectionStep s
  | thing s => exact moves_thingStep s
  | expect name reaction reply accepts =>
      exact Session.moves_bind (Session.moves_lift (moves_prepareCall name _ reply)) fun c =>
        Session.moves_bind (moves_register c reaction) fun p =>
        Session.moves_bind (Session.moves_lift (hname name p)) fun _ => Session.moves_pure _
  | request name bus message reaction reply timeout =>
      refine Session.moves_bind (Session.reads_busNamed bus).of_eq fun b => ?_
      refine Session.moves_bind (Session.moves_lift (moves_createReply name reply)) fun m => ?_
      refine Session.moves_bind (Session.moves_lift (moves_createCall _)) fun c => ?_
      refine Session.moves_bind (reads_message message).of_eq fun m => ?_
      refine Session.moves_bind (Session.reads_milliseconds timeout).of_eq fun ms => ?_
      refine Session.moves_bind (moves_sendForReply b m c ms) fun sent => ?_
      cases sent with
      | none => exact Session.moves_pure _
      | some c =>
          exact Session.moves_bind (moves_register c reaction) fun p =>
            Session.moves_bind (Session.moves_lift (moves_noteLine name c)) fun _ =>
            Session.moves_bind (Session.moves_lift (hname name p)) fun _ => Session.moves_pure _

/-- What holds from every state to the one after a reply has come in holds from every state to
the one after a step. -/
theorem moves_step (hblocked : ∀ c, Moves R (record (.blocked c)))
    (hcomplete : ∀ c, Moves R (complete run c)) (s : Step) :
    Moves R (s.perform run).run := by
  cases s with
  | call s => exact moves_callStep hblocked hcomplete s
  | _ => exact moves_otherStep id

end

end DBusHost
