import DBusHost.Proofs.Session.Reading

/-!
# What steps are made of

Steps on messages, iterators, connections and things of every sort are made of a few operations
and of computations that change nothing of importance.  A preorder that admits these holds from
every state to the one after such a step; what is true of all steps needs to be seen for the
operations only.

The operations in turn are made of single changes, and so are the steps for a preorder that
admits every change by itself.
-/

namespace DBusHost

open Host

/-- The relation holds from one state to another one if nothing of importance has changed. -/
class AdmitsSerene (R : Host → Host → Prop) : Prop extends IsPreorder Host R where
  serene {h h' : Host} (hserene : Serene h h') : R h h'

/-- The relation holds from one state to another one if a single operation leads there. -/
class Admits (R : Host → Host → Prop) : Prop extends AdmitsSerene R where
  create (r : Resource) : Moves R (Host.create r)
  share (r : Resource) : Moves R (Host.share r)
  adoptAs (name : String) (r : Resource) : Moves R (Host.adoptAs name r)
  /-- An iterator or a pending call is given a name. -/
  assign (name : String) {t : Thing} (hw : ∀ w, t ≠ .wrapper w) (hc : ∀ c, t ≠ .handle c) :
    Moves R (Host.assign name t)
  drop (name : String) : Moves R (Session.drop name).run
  close (p : PendingId) : Moves R (Pending.close p)

/-- The relation holds from one state to another one if a single change leads there. -/
class AdmitsChanges (R : Host → Host → Prop) : Prop extends AdmitsSerene R where
  create (r : Resource) : Moves R (Host.create r)
  share (r : Resource) : Moves R (Host.share r)
  adopt (r : Resource) : Moves R (Host.adopt r)
  letGoWrapper (w : WrapperId) : Moves R (Host.letGoWrapper w)
  name (h : Host) (s : String) {t : Thing} (hc : ∀ c, t ≠ .handle c) :
    R h { h with names := h.names.put s t }
  forget (h : Host) (s : String) : R h { h with names := h.names.erase s }
  close (p : PendingId) : Moves R (Pending.close p)

section

variable {α : Type} {R : Host → Host → Prop}

theorem moves_serene [AdmitsSerene R] {w : StateM Host α} (hw : Moves Serene w) : Moves R w :=
  hw.mono fun _ _ => AdmitsSerene.serene

/-! ## Operations are made of changes -/

/-- What follows on giving a name to a thing, given what the name stood for. -/
def Host.named (name : String) (t : Thing) (old : Option Thing) : StateM Host Unit := do
  if let some m := (← get).messageOf? t then label name (.message m)
  if let some old := old then letGo old

theorem run_assign (name : String) (t : Thing) (h : Host) : (assign name t).run h =
    (named name t (h.names.get? name)).run { h with names := h.names.put name t } := rfl

/-- A message may be labelled with the name, and what the name stood for loses it. -/
theorem named_cases (name : String) (t : Thing) (old : Option Thing) (h : Host) :
    ∃ h₁, Serene h h₁ ∧ (old = none ∧ ((named name t old).run h).2 = h₁ ∨
      ∃ thing, old = some thing ∧
        ((named name t old).run h).2 = ((letGo thing).run h₁).2) := by
  unfold named
  rw [StateT.run_bind, StateT.run_get, pure_bind]
  cases h.messageOf? t with
  | none =>
      refine ⟨h, refl_of Serene h, ?_⟩
      cases old with
      | none => exact .inl ⟨rfl, rfl⟩
      | some thing => exact .inr ⟨thing, rfl, rfl⟩
  | some m =>
      refine ⟨_, serene_label name (.message m) h, ?_⟩
      cases old with
      | none => exact .inl ⟨rfl, rfl⟩
      | some thing => exact .inr ⟨thing, rfl, rfl⟩

section

variable [AdmitsChanges R]

theorem moves_letGo (t : Thing) : Moves R (letGo t) := by
  cases t with
  | wrapper w => exact AdmitsChanges.letGoWrapper w
  | pending p =>
      refine moves_get ?_
      intro h
      split
      · exact refl_of R h
      · exact AdmitsChanges.close p h
  | handle c => exact moves_pure _
  | reader i => exact moves_pure _
  | writer i => exact moves_pure _

theorem moves_named (name : String) (t : Thing) (old : Option Thing) :
    Moves R (named name t old) := by
  intro h
  obtain ⟨h₁, hserene, ⟨-, hnamed⟩ | ⟨thing, -, hnamed⟩⟩ := named_cases name t old h
  · rw [hnamed]
    exact AdmitsSerene.serene hserene
  · rw [hnamed]
    exact trans_of R (AdmitsSerene.serene hserene) (moves_letGo thing h₁)

theorem moves_assign (name : String) {t : Thing} (hc : ∀ c, t ≠ .handle c) :
    Moves R (assign name t) := fun h =>
  trans_of R (AdmitsChanges.name h name hc) (moves_named name t (h.names.get? name) _)

theorem moves_adoptAs (name : String) (r : Resource) : Moves R (adoptAs name r) := by
  have hadopt : Moves R (adopt r) := AdmitsChanges.adopt r
  refine hadopt.bind fun w => moves_get fun h => ?_
  exact (moves_assign name (by simp)).bind (fun _ => moves_pure _) h

theorem moves_drop (name : String) : Moves R (Session.drop name).run := by
  refine Session.moves_bind (Session.reads_thing name).of_eq ?_
  intro t
  have hforget : Moves R (modify fun h => { h with names := h.names.erase name }) :=
    fun h => AdmitsChanges.forget h name
  exact Session.moves_bind (Session.moves_lift hforget) fun _ =>
    Session.moves_lift (moves_letGo t)

instance AdmitsChanges.admits : Admits R where
  create := AdmitsChanges.create
  share := AdmitsChanges.share
  adoptAs := moves_adoptAs
  assign name _ _ hc := moves_assign name hc
  drop := moves_drop
  close := AdmitsChanges.close

end

variable [Admits R]

/-! ## Messages -/

theorem moves_createMessage (message : Message) : Moves R (createMessage message) := by
  refine moves_get ?_
  intro h
  have hadd : Moves R (modify fun h => { h with messages := h.messages ++ [message] }) :=
    moves_serene (serene_modify (fun _ => rfl) fun _ => rfl)
  have hcreate : Moves R (create (.message h.messages.length)) :=
    Admits.create _
  exact hadd.bind (fun _ => hcreate.bind fun _ => moves_pure _) h

theorem moves_createLabelled (name : String) (message : Message) :
    Moves R (createLabelled name message) :=
  (moves_createMessage message).bind fun m =>
    (moves_serene (serene_relabel name (.message m))).bind fun _ => moves_pure _

theorem moves_make (name : String) (r : Routine) (message : Message) :
    Moves R (MessageStep.make name r message).run := by
  refine Session.moves_bind (moves_serene (Session.serene_call r)) fun _ => ?_
  refine Session.moves_bind (Session.moves_lift (moves_createMessage message)) ?_
  intro m
  exact Session.moves_bind (Session.moves_lift (Admits.adoptAs name (.message m)).discard)
    fun _ => Session.moves_pure _

theorem moves_messageStep (s : MessageStep) : Moves R s.perform.run := by
  have hbuild : ∀ r, Moves R (Session.build r).run := fun r => (Session.reads_build r).of_eq
  have hexcept : ∀ {β : Type} (e : Except Fault β), Moves R (Session.ofExcept e).run :=
    fun e => (Session.moves_ofExcept e).of_eq
  cases s with
  | newCall name destination path interface member =>
      exact Session.moves_bind (hbuild _) fun _ => Session.moves_bind (hbuild _) fun _ =>
        Session.moves_bind (hbuild _) fun _ => Session.moves_bind (hbuild _) fun _ =>
        Session.moves_bind (hexcept _) fun _ => moves_make name .newMethodCall _
  | newSignal name path interface member =>
      exact Session.moves_bind (hbuild _) fun _ => Session.moves_bind (hbuild _) fun _ =>
        Session.moves_bind (hbuild _) fun _ => Session.moves_bind (hexcept _) fun _ =>
        moves_make name .newSignal _
  | newReturn name call =>
      exact Session.moves_bind (Session.reads_messageNamed call).of_eq fun m =>
        Session.moves_bind (Session.reads_messageAt m).of_eq fun _ =>
        moves_make name .newMethodReturn _
  | newError name call error text =>
      exact Session.moves_bind (Session.reads_messageNamed call).of_eq fun m =>
        Session.moves_bind (hbuild _) fun _ => Session.moves_bind (hbuild _) fun _ =>
        Session.moves_bind (Session.reads_messageAt m).of_eq fun _ =>
        Session.moves_bind (hexcept _) fun _ => moves_make name .newError _
  | receive name message =>
      exact Session.moves_bind (Session.moves_lift (moves_createLabelled name message).discard)
        fun _ => Session.moves_pure _
  | consume name source =>
      refine Session.moves_bind (Session.reads_labelled source).of_eq ?_
      intro r
      cases r with
      | message m =>
          exact Session.moves_bind (Session.moves_lift (Admits.adoptAs name (.message m)))
            fun _ => Session.moves_pure _
      | bus b => exact Session.moves_throw _
  | share source =>
      refine Session.moves_bind (Session.reads_labelled source).of_eq ?_
      intro r
      exact Session.moves_bind (Session.moves_lift (Admits.share r)) fun _ => Session.moves_pure _
  | references source =>
      exact Session.moves_bind (Session.reads_labelled source).of_eq fun r =>
        Session.moves_get fun h => refl_of R h
  | append name signature x =>
      refine Session.moves_bind (Session.reads_messageNamed name).of_eq fun m =>
        Session.moves_bind (hbuild _) fun _ => Session.moves_bind (hbuild _) fun _ =>
        Session.moves_get fun h => ?_
      exact Session.moves_bind (moves_serene (Session.serene_writeOn m _)) (fun _ =>
        Session.moves_bind (Session.reads_messageAt m).of_eq fun _ =>
        Session.moves_bind (hexcept _) fun _ => Session.moves_pure _) h
  | objects name =>
      refine Session.moves_bind (Session.reads_messageNamed name).of_eq fun m =>
        Session.moves_bind (Session.reads_messageAt m).of_eq fun _ =>
        Session.moves_get fun h => ?_
      exact Session.moves_bind (moves_serene (Session.serene_attempt _))
        (fun _ => Session.moves_pure _) h
  | raiseIfError name =>
      refine Session.moves_bind (Session.reads_messageNamed name).of_eq fun m =>
        Session.moves_bind (Session.reads_messageAt m).of_eq fun _ =>
        Session.moves_get fun h => ?_
      exact Session.moves_bind (moves_serene (Session.serene_attempt _))
        (fun _ => Session.moves_pure _) h

/-! ## Iterators -/

theorem moves_assignReader (name : String) (r : ReadIterator) :
    Moves R (assignReader name r) := by
  have hadd : Moves R (modify fun h => { h with readers := h.readers ++ [r] }) :=
    moves_serene (serene_modify (fun _ => rfl) fun _ => rfl)
  exact moves_get fun h => hadd.bind (fun _ => Admits.assign name (by simp) (by simp)) h

theorem moves_assignWriter (name : String) (w : WriteIterator) :
    Moves R (assignWriter name w) := by
  have hadd : Moves R (modify fun h => { h with writers := h.writers ++ [w] }) :=
    moves_serene (serene_modify (fun _ => rfl) fun _ => rfl)
  exact moves_get fun h => hadd.bind (fun _ => Admits.assign name (by simp) (by simp)) h

theorem moves_iteratorStep (s : IteratorStep) : Moves R s.perform.run := by
  cases s with
  | reader name message =>
      exact Session.moves_bind (Session.reads_messageNamed message).of_eq fun m =>
        Session.moves_bind (Session.reads_messageAt m).of_eq fun _ =>
        Session.moves_bind (Session.moves_lift (moves_assignReader name _))
        fun _ => Session.moves_pure _
  | writer name message =>
      exact Session.moves_bind (Session.reads_messageNamed message).of_eq fun m =>
        Session.moves_bind (Session.moves_lift (moves_assignWriter name _))
        fun _ => Session.moves_pure _
  | enter name it =>
      exact Session.moves_bind (Session.reads_readerNamed it).of_eq fun _ =>
        Session.moves_bind (Session.moves_lift (moves_assignReader name _))
        fun _ => Session.moves_pure _
  | advance it =>
      refine Session.moves_bind (Session.reads_loopedOver it).of_eq ?_
      rintro ⟨i, r⟩
      dsimp only
      obtain ⟨reason, moved⟩ := r.reader.advance
      have hset : Moves R (modify fun h =>
          { h with readers := h.readers.set i { r with reader := moved } }) :=
        moves_serene (serene_modify (fun _ => rfl) fun _ => rfl)
      refine Session.moves_bind (Session.moves_lift hset) fun _ => ?_
      cases reason with
      | none => exact Session.moves_pure _
      | some reason => exact Session.moves_throw _
  | restart it =>
      exact Session.moves_bind (Session.moves_discard (Session.reads_loopedOver it).of_eq) fun _ =>
        Session.moves_pure _
  | object it level =>
      refine Session.moves_bind (Session.reads_iteratorNamed it).of_eq fun t =>
        Session.moves_bind (Session.reads_build level).of_eq fun _ => ?_
      cases t with
      | reading i r =>
          exact Session.moves_get fun h =>
            Session.moves_bind (moves_serene (Session.serene_attempt _))
              (fun _ => Session.moves_pure _) h
      | writing i w => exact Session.moves_throw _
  | appendBasic it type x =>
      refine Session.moves_bind (Session.reads_iteratorNamed it).of_eq fun t =>
        Session.moves_bind (reads_onlyChar type).of_eq fun _ =>
        Session.moves_bind (Session.reads_build x).of_eq fun _ => ?_
      cases t with
      | reading i r => exact Session.moves_throw _
      | writing i w =>
          exact Session.moves_get fun h =>
            Session.moves_bind (moves_serene (Session.serene_writeOn w.message _))
              (fun _ => Session.moves_pure _) h
  | openContainer name it type signature =>
      refine Session.moves_bind (Session.reads_iteratorNamed it).of_eq fun t =>
        Session.moves_bind (reads_onlyChar type).of_eq fun code =>
        Session.moves_bind (Session.reads_build signature).of_eq fun _ => ?_
      cases t with
      | reading i r => exact Session.moves_throw _
      | writing i w =>
          refine Session.moves_bind (Session.moves_ofExcept _).of_eq fun _ => ?_
          cases ContainerKind.ofCode? (typeCode code) with
          | none => exact Session.moves_throw _
          | some kind =>
              exact Session.moves_bind (moves_serene (Session.serene_writeOn w.message _)) fun _ =>
                Session.moves_bind (Session.moves_lift (moves_assignWriter name _)) fun _ =>
                Session.moves_pure _
  | abandon it =>
      exact Session.moves_bind (Session.reads_writerNamed it).of_eq fun w =>
        Session.moves_bind (reads_draft w.2 _).of_eq fun _ =>
        Session.moves_bind (moves_serene (Session.serene_writeOn w.2.message _)) fun _ =>
        Session.moves_get fun h => refl_of R h

/-! ## Connections -/

theorem moves_openBus (b : String) : Moves R (openBus b) := by
  refine moves_get ?_
  intro h
  have hcreate : Moves R (create (.bus b)) := Admits.create _
  cases h.buses.get? b with
  | some bus => exact Admits.share (.bus b) h
  | none =>
      exact (moves_serene (serene_modifyBus b id)).bind (fun _ =>
        hcreate.bind fun _ => moves_serene (serene_relabel b (.bus b))) h

theorem moves_record {e : Event} (he : e.IsSerene) : Moves R (record e) :=
  moves_serene (serene_record he)

theorem moves_connectionStep (s : ConnectionStep) : Moves R s.perform.run := by
  have hbuild : ∀ r, Moves R (Session.build r).run := fun r => (Session.reads_build r).of_eq
  have hbus : ∀ name, Moves R (Session.busNamed name).run :=
    fun name => (Session.reads_busNamed name).of_eq
  have hrecord : ∀ {e : Event}, e.IsSerene → Moves R (liftM (record e) : Session Unit).run :=
    fun he => Session.moves_lift (moves_record he)
  cases s with
  | get name type isPrivate outcome =>
      refine Session.moves_bind (hbuild _) fun _ => Session.moves_bind (hbuild _) fun _ =>
        Session.moves_bind (Session.moves_ofExcept _).of_eq fun _ =>
        Session.moves_bind (hrecord trivial) fun _ => ?_
      cases outcome with
      | nothing => exact Session.moves_pure _
      | failed error text => exact Session.moves_throw _
      | given b =>
          exact Session.moves_bind (Session.moves_lift (moves_openBus b)) fun _ =>
            Session.moves_bind (Session.moves_lift (Admits.adoptAs name (.bus b))) fun _ =>
            Session.moves_pure _
  | isConnected name =>
      exact Session.moves_bind (hbus name) fun _ => Session.moves_get fun h => refl_of R h
  | flush name =>
      exact Session.moves_bind (hbus name) fun _ => Session.moves_bind (hrecord trivial) fun _ =>
        Session.moves_pure _
  | dispatch name timeout =>
      exact Session.moves_bind (hbus name) fun _ =>
        Session.moves_bind (Session.reads_milliseconds _).of_eq fun _ =>
        Session.moves_bind (hrecord trivial) fun _ => Session.moves_get fun h => refl_of R h
  | send name message =>
      exact Session.moves_bind (hbus name) fun b =>
        Session.moves_bind (reads_message message).of_eq fun m =>
        Session.moves_bind (moves_serene (Session.serene_call _)) fun _ =>
        Session.moves_bind (hrecord trivial) fun _ =>
        Session.moves_bind (moves_serene (Session.serene_assignSerial b m)) fun _ =>
        Session.moves_pure _
  | sendAndWait name connection message outcome timeout =>
      refine Session.moves_bind (hbus connection) fun b =>
        Session.moves_bind (reads_message message).of_eq fun m =>
        Session.moves_bind (Session.reads_milliseconds _).of_eq fun _ =>
        Session.moves_bind (hrecord trivial) fun _ =>
        Session.moves_bind (Session.moves_discard (moves_serene (Session.serene_assignSerial b m)))
        fun _ => ?_
      cases outcome with
      | nothing => exact Session.moves_pure _
      | failed error text => exact Session.moves_throw _
      | given reply =>
          exact Session.moves_bind (Session.moves_lift (moves_createMessage reply)) fun _ =>
            Session.moves_bind (Session.moves_lift (Admits.adoptAs name _).discard) fun _ =>
            Session.moves_pure _

/-! ## Things of every sort -/

theorem moves_look (name property : String) : Moves R (Session.look name property).run := by
  refine Session.moves_bind (Session.reads_thing name).of_eq ?_
  intro t
  cases t with
  | wrapper w =>
      refine Session.moves_get fun h => Session.moves_get (R := R) (fun h' => ?_) h
      cases h.messageOf? (.wrapper w) with
      | some m => exact moves_serene (Session.serene_lookAtMessage m property) h'
      | none =>
          cases h'.busOf? (.wrapper w) with
          | some b => exact moves_serene (Session.serene_lookAtBus b property) h'
          | none => exact refl_of R h'
  | pending p => exact moves_serene (Session.serene_lookAtPending p property)
  | handle c => exact (Session.reads_lookAtMethod handleMethods property).of_eq
  | reader i =>
      exact Session.moves_bind (Session.reads_iteratorNamed name).of_eq fun it =>
        moves_serene (Session.serene_lookAtIterator it property)
  | writer i =>
      exact Session.moves_bind (Session.reads_iteratorNamed name).of_eq fun it =>
        moves_serene (Session.serene_lookAtIterator it property)

theorem serene_setOnMessage (m : MessageId) (property : String) (x : Value) :
    Moves Serene (Session.setOnMessage m property x).run := by
  unfold Session.setOnMessage
  split
  · split
    · exact Session.moves_lift (serene_modifyMessage m _)
    · exact Session.moves_throw _
  · exact Session.moves_lift (serene_modifyMessage m _)
  · exact Session.moves_throw _

theorem moves_closeWriter (w : WriteIterator) : Moves R w.close.run := by
  refine Session.moves_bind (reads_draft w _).of_eq ?_
  intro d
  exact Session.moves_bind (moves_serene (Session.serene_writeOn w.message _))
    fun _ => Session.moves_pure _

theorem moves_close (name : String) : Moves R (Session.close name).run := by
  refine Session.moves_bind (Session.reads_thing name).of_eq ?_
  intro t
  cases t with
  | wrapper w =>
      exact Session.moves_bind (Session.reads_busNamed name).of_eq fun b =>
        Session.moves_bind (Session.moves_lift (moves_serene (serene_closeBus b))) fun _ =>
        Session.moves_pure _
  | pending p =>
      exact Session.moves_bind (Session.moves_lift (Admits.close p)) fun _ => Session.moves_pure _
  | handle c => exact Session.moves_throw _
  | reader i =>
      exact Session.moves_bind (Session.reads_writerNamed name).of_eq fun w =>
        Session.moves_bind (moves_closeWriter w.2) fun _ => Session.moves_pure _
  | writer i =>
      exact Session.moves_bind (Session.reads_writerNamed name).of_eq fun w =>
        Session.moves_bind (moves_closeWriter w.2) fun _ => Session.moves_pure _

theorem moves_thingStep (s : ThingStep) : Moves R s.perform.run := by
  cases s with
  | look name property => exact moves_look name property
  | set name property x =>
      refine Session.moves_bind (Session.reads_thing name).of_eq fun t =>
        Session.moves_bind (Session.reads_build x).of_eq fun x => Session.moves_get fun h => ?_
      cases h.messageOf? t with
      | none => exact refl_of R h
      | some m =>
          exact Session.moves_bind (moves_serene (serene_setOnMessage m property x))
            (fun _ => Session.moves_pure _) h
  | close name =>
      exact Session.moves_bind (Session.moves_discard (moves_close name)) fun _ =>
        Session.moves_pure _
  | closeInside name =>
      refine Session.moves_bind (moves_close name) ?_
      intro parent
      cases parent with
      | none => exact Session.moves_pure _
      | some parent => exact Session.moves_get fun h => refl_of R h
  | drop name => exact Session.moves_bind (Admits.drop name) fun _ => Session.moves_pure _

/-! ## Handlers and whole sessions -/

theorem moves_createReply (name : String) (reply : Option Message) :
    Moves R (createReply name reply) := by
  cases reply with
  | none => exact moves_pure _
  | some message => exact (moves_createLabelled (name ++ ".reply") message).map _

theorem moves_runHandler {run : Reacting} {w : WrapperId}
    (hrun : ∀ n actions, Moves R (run w n actions)) (p : PendingId) (m : MessageId) (id : String)
    (actions : List Action) : Moves R (runHandler run p w m id actions) := by
  refine Moves.get fun h => Moves.get fun h' => Moves.get fun h'' => ?_
  have hobjects : Moves R (Session.result
      (Session.attempt (((h''.message? m).getD { kind := noType }).objects h'.validator))) :=
    Session.moves_result (moves_serene (Session.serene_attempt _))
  refine hobjects.bind ?_
  intro objects
  have hadd : Moves R (modify fun s : Host => { s with deliveries := s.deliveries ++
      [⟨id, ((h''.message? m).getD { kind := noType }).kind, objects, []⟩] }) :=
    moves_serene (serene_modify (fun _ => rfl) fun _ => rfl)
  refine hadd.bind fun _ => (hrun h.deliveries.length actions).bind fun raised => ?_
  have hfinished : Moves R (record (.finished p raised)) := moves_record trivial
  refine hfinished.bind fun _ => ?_
  split
  · exact moves_record trivial
  · exact moves_pure _

theorem moves_resume {run : Reacting} {w : WrapperId}
    (hrun : ∀ n actions, Moves R (run w n actions)) (p : PendingId) (m : MessageId)
    (reaction : Reaction) : Moves R (resume run p w m reaction) := by
  cases reaction with
  | absent => exact moves_pure _
  | inert => exact moves_record trivial
  | handler id actions => exact moves_runHandler hrun p m id actions

theorem serene_raiseReported (w : WrapperId) : Moves Serene (Session.raiseReported w).run := by
  refine Session.moves_get ?_
  intro h
  cases h.messageOf? (.wrapper w) with
  | none => exact refl_of Serene h
  | some m =>
      exact Session.moves_bind (Session.reads_messageAt m).of_eq (fun _ =>
        Session.moves_get fun h => Session.serene_attempt _ h) h

/-- The actions of a handler are steps and the naming of the reply. -/
theorem moves_runActions {perform : Step → Session Answer} {w : WrapperId}
    (hperform : ∀ s, Moves R (perform s).run) (hkeep : ∀ name, Moves R (assign name (.wrapper w)))
    (n : Nat) (actions : List Action) : Moves R (runActions perform w n actions) := by
  induction actions with
  | nil => exact moves_pure _
  | cons a rest ih =>
      cases a with
      | raise className text => exact moves_pure _
      | raiseIfError =>
          have hraise : Moves R (Session.raiseReported w).result :=
            Session.moves_result (moves_serene (serene_raiseReported w))
          refine hraise.bind ?_
          intro e
          cases e with
          | ok u => exact ih
          | error f => exact moves_pure _
      | keep name => exact (hkeep name).bind fun _ => ih
      | step s =>
          have hstep : Moves R (perform s).result := Session.moves_result (hperform s)
          have hnote : ∀ a, Moves R (noteAction n a) :=
            fun a => moves_serene (serene_noteAction n a)
          exact hstep.bind fun a => (hnote a).bind fun _ => ih

theorem moves_reportStep {run : Reacting} {s : Step} (hs : Moves R (s.perform run).run) :
    Moves R (reportStep run s) := by
  refine Moves.get ?_
  intro h
  have hstep : Moves R (s.perform run).result := Session.moves_result hs
  exact hstep.bind fun _ => Moves.get fun _ => moves_pure _

theorem moves_reportSteps {run : Reacting} (hs : ∀ s : Step, Moves R (s.perform run).run)
    (steps : List Step) : Moves R (reportSteps run steps) := by
  induction steps with
  | nil => exact moves_pure _
  | cons s rest ih =>
      exact (moves_reportStep (hs s)).bind fun _ => ih.bind fun _ => moves_pure _

end

end DBusHost
