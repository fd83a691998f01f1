import DBusHost.Proofs.Session.UnaffectedParts

/-!
# Steps that a mishap does not matter to

A step by which no reply comes in, and that does not bring a handler along, does the same in a run
that has a mishap as in the one that has not.
-/

namespace DBusHost

open Host Mishap

variable {m : Mishap}

/-! ## Messages -/

theorem unaffected_make (name : String) (r : Routine) (message : Message) :
    m.Unaffected (MessageStep.make name r message).run := by
  refine Session.unaffected_bind (Session.unaffected_call r) fun _ => ?_
  refine Session.unaffected_bind (Session.unaffected_lift (unaffected_createMessage message)) ?_
  intro i
  exact Session.unaffected_bind (Session.unaffected_lift
    (unaffected_adoptAs name (.message i)).discard) fun _ => Session.unaffected_pure _

theorem unaffected_messageStep (s : MessageStep) : m.Unaffected s.perform.run := by
  have hbuild : ∀ r, m.Unaffected (Session.build r).run := Session.unaffected_build
  have hnamed : ∀ name, m.Unaffected (Session.messageNamed name).run :=
    Session.unaffected_messageNamed
  have hat : ∀ i, m.Unaffected (Session.messageAt i).run := Session.unaffected_messageAt
  cases s with
  | newCall name destination path interface member =>
      exact Session.unaffected_bind (hbuild _) fun _ => Session.unaffected_bind (hbuild _) fun _ =>
        Session.unaffected_bind (hbuild _) fun _ => Session.unaffected_bind (hbuild _) fun _ =>
        Session.unaffected_bind (Session.unaffected_ofExcept _) fun _ =>
        unaffected_make name .newMethodCall _
  | newSignal name path interface member =>
      exact Session.unaffected_bind (hbuild _) fun _ => Session.unaffected_bind (hbuild _) fun _ =>
        Session.unaffected_bind (hbuild _) fun _ =>
        Session.unaffected_bind (Session.unaffected_ofExcept _) fun _ =>
        unaffected_make name .newSignal _
  | newReturn name call =>
      exact Session.unaffected_bind (hnamed call) fun i => Session.unaffected_bind (hat i) fun _ =>
        unaffected_make name .newMethodReturn _
  | newError name call error text =>
      exact Session.unaffected_bind (hnamed call) fun i =>
        Session.unaffected_bind (hbuild _) fun _ => Session.unaffected_bind (hbuild _) fun _ =>
        Session.unaffected_bind (hat i) fun _ =>
        Session.unaffected_bind (Session.unaffected_ofExcept _) fun _ =>
        unaffected_make name .newError _
  | receive name message =>
      exact Session.unaffected_bind (Session.unaffected_lift
        (unaffected_createLabelled name message).discard) fun _ => Session.unaffected_pure _
  | consume name source =>
      refine Session.unaffected_bind (Session.unaffected_labelled source) fun r => ?_
      cases r with
      | message i =>
          exact Session.unaffected_bind (Session.unaffected_lift
            (unaffected_adoptAs name (.message i))) fun _ => Session.unaffected_pure _
      | bus b => exact Session.unaffected_throw _
  | share source =>
      exact Session.unaffected_bind (Session.unaffected_labelled source) fun r =>
        Session.unaffected_bind (Session.unaffected_lift (unaffected_share r)) fun _ =>
        Session.unaffected_pure _
  | references source =>
      exact Session.unaffected_bind (Session.unaffected_labelled source) fun r =>
        Session.unaffected_get (fun _ _ _ => rfl) fun _ => Session.unaffected_pure _
  | append name signature x =>
      exact Session.unaffected_bind (hnamed name) fun i =>
        Session.unaffected_bind (hbuild _) fun _ => Session.unaffected_bind (hbuild _) fun _ =>
        Session.unaffected_get (fun _ _ _ => rfl) fun _ =>
        Session.unaffected_bind (Session.unaffected_writeOn i _) fun _ =>
        Session.unaffected_bind (hat i) fun _ =>
        Session.unaffected_bind (Session.unaffected_ofExcept _) fun _ => Session.unaffected_pure _
  | objects name =>
      exact Session.unaffected_bind (hnamed name) fun i => Session.unaffected_bind (hat i) fun _ =>
        Session.unaffected_get (fun _ _ _ => rfl) fun _ =>
        Session.unaffected_bind (Session.unaffected_attempt _) fun _ => Session.unaffected_pure _
  | raiseIfError name =>
      exact Session.unaffected_bind (hnamed name) fun i => Session.unaffected_bind (hat i) fun _ =>
        Session.unaffected_get (fun _ _ _ => rfl) fun _ =>
        Session.unaffected_bind (Session.unaffected_attempt _) fun _ => Session.unaffected_pure _

/-! ## Iterators -/

theorem unaffected_assignReader (name : String) (r : ReadIterator) :
    m.Unaffected (assignReader name r) :=
  unaffected_get (fun _ _ _ => rfl) fun _ =>
    (unaffected_modify fun _ _ _ => rfl).bind fun _ => unaffected_assign name _

theorem unaffected_assignWriter (name : String) (w : WriteIterator) :
    m.Unaffected (assignWriter name w) :=
  unaffected_get (fun _ _ _ => rfl) fun _ =>
    (unaffected_modify fun _ _ _ => rfl).bind fun _ => unaffected_assign name _

theorem unaffected_iteratorStep (s : IteratorStep) : m.Unaffected s.perform.run := by
  have hreader : ∀ name r, m.Unaffected (liftM (assignReader name r) : Session Unit).run :=
    fun name r => Session.unaffected_lift (unaffected_assignReader name r)
  have hwriter : ∀ name w, m.Unaffected (liftM (assignWriter name w) : Session Unit).run :=
    fun name w => Session.unaffected_lift (unaffected_assignWriter name w)
  cases s with
  | reader name message =>
      exact Session.unaffected_bind (Session.unaffected_messageNamed message) fun i =>
        Session.unaffected_bind (Session.unaffected_messageAt i) fun _ =>
        Session.unaffected_bind (hreader name _) fun _ => Session.unaffected_pure _
  | writer name message =>
      exact Session.unaffected_bind (Session.unaffected_messageNamed message) fun i =>
        Session.unaffected_bind (hwriter name _) fun _ => Session.unaffected_pure _
  | enter name it =>
      exact Session.unaffected_bind (Session.unaffected_readerNamed it) fun _ =>
        Session.unaffected_bind (hreader name _) fun _ => Session.unaffected_pure _
  | advance it =>
      refine Session.unaffected_bind (Session.unaffected_loopedOver it) ?_
      rintro ⟨i, r⟩
      dsimp only
      obtain ⟨reason, moved⟩ := r.reader.advance
      have hset : m.Unaffected (modify fun h =>
          { h with readers := h.readers.set i { r with reader := moved } }) :=
        unaffected_modify fun _ _ _ => rfl
      refine Session.unaffected_bind (Session.unaffected_lift hset) fun _ => ?_
      cases reason with
      | none => exact Session.unaffected_pure _
      | some reason => exact Session.unaffected_throw _
  | restart it =>
      exact Session.unaffected_bind (Session.unaffected_discard (Session.unaffected_loopedOver it))
        fun _ => Session.unaffected_pure _
  | object it level =>
      refine Session.unaffected_bind (Session.unaffected_iteratorNamed it) fun t =>
        Session.unaffected_bind (Session.unaffected_build level) fun _ => ?_
      cases t with
      | reading i r =>
          exact Session.unaffected_get (fun _ _ _ => rfl) fun _ =>
            Session.unaffected_bind (Session.unaffected_attempt _) fun _ =>
            Session.unaffected_pure _
      | writing i w => exact Session.unaffected_throw _
  | appendBasic it type x =>
      refine Session.unaffected_bind (Session.unaffected_iteratorNamed it) fun t =>
        Session.unaffected_bind (Session.unaffected_onlyChar type) fun _ =>
        Session.unaffected_bind (Session.unaffected_build x) fun _ => ?_
      cases t with
      | reading i r => exact Session.unaffected_throw _
      | writing i w =>
          exact Session.unaffected_get (fun _ _ _ => rfl) fun _ =>
            Session.unaffected_bind (Session.unaffected_writeOn w.message _) fun _ =>
            Session.unaffected_pure _
  | openContainer name it type signature =>
      refine Session.unaffected_bind (Session.unaffected_iteratorNamed it) fun t =>
        Session.unaffected_bind (Session.unaffected_onlyChar type) fun code =>
        Session.unaffected_bind (Session.unaffected_build signature) fun _ => ?_
      cases t with
      | reading i r => exact Session.unaffected_throw _
      | writing i w =>
          refine Session.unaffected_bind (Session.unaffected_ofExcept _) fun _ => ?_
          cases ContainerKind.ofCode? (typeCode code) with
          | none => exact Session.unaffected_throw _
          | some kind =>
              exact Session.unaffected_bind (Session.unaffected_writeOn w.message _) fun _ =>
                Session.unaffected_bind (hwriter name _) fun _ => Session.unaffected_pure _
  | abandon it =>
      exact Session.unaffected_bind (Session.unaffected_writerNamed it) fun w =>
        Session.unaffected_bind (Session.unaffected_draft w.2 _) fun _ =>
        Session.unaffected_bind (Session.unaffected_writeOn w.2.message _) fun _ =>
        Session.unaffected_get (fun _ _ _ => rfl) fun _ => Session.unaffected_pure _

/-! ## Connections -/

theorem unaffected_openBus (b : String) : m.Unaffected (openBus b) := by
  refine unaffected_get (fun _ _ _ => rfl) fun h => ?_
  cases h.buses.get? b with
  | some bus => exact unaffected_share (.bus b)
  | none =>
      exact (unaffected_modifyBus b id).bind fun _ => (unaffected_create (.bus b)).bind fun _ =>
        unaffected_relabel b (.bus b)

theorem unaffected_assignSerial (b : String) (i : MessageId) :
    m.Unaffected (Session.assignSerial b i).run := by
  refine Session.unaffected_bind (Session.unaffected_messageAt i) fun message => ?_
  split
  · exact Session.unaffected_pure _
  · exact Session.unaffected_get (fun _ _ _ => rfl) fun _ =>
      Session.unaffected_bind (Session.unaffected_lift (unaffected_modifyBus b _)) fun _ =>
      Session.unaffected_bind (Session.unaffected_lift (unaffected_modifyMessage i _)) fun _ =>
      Session.unaffected_pure _

theorem unaffected_sendForReply (b : String) (i : MessageId) (c : CallId) (ms : Int) :
    m.Unaffected (Session.sendForReply b i c ms).run := by
  have hsent : m.Unaffected (record (.sentForReply b ms)) := unaffected_record trivial
  refine Session.unaffected_bind (Session.unaffected_call _) fun _ =>
    Session.unaffected_bind (Session.unaffected_lift hsent) fun _ =>
    Session.unaffected_get (fun _ _ _ => rfl) fun h => ?_
  split
  · exact Session.unaffected_bind (Session.unaffected_discard (unaffected_assignSerial b i))
      fun _ => Session.unaffected_bind (Session.unaffected_lift (unaffected_modifyCall c _))
      fun _ => Session.unaffected_pure _
  · exact Session.unaffected_pure _

theorem unaffected_connectionStep (s : ConnectionStep) : m.Unaffected s.perform.run := by
  have hbuild : ∀ r, m.Unaffected (Session.build r).run := Session.unaffected_build
  have hbus : ∀ name, m.Unaffected (Session.busNamed name).run := Session.unaffected_busNamed
  have hrecord : ∀ {e : Event}, e.IsOutside → m.Unaffected (liftM (record e) : Session Unit).run :=
    fun he => Session.unaffected_lift (unaffected_record he)
  cases s with
  | get name type isPrivate outcome =>
      refine Session.unaffected_bind (hbuild _) fun _ => Session.unaffected_bind (hbuild _) fun _ =>
        Session.unaffected_bind (Session.unaffected_ofExcept _) fun _ =>
        Session.unaffected_bind (hrecord trivial) fun _ => ?_
      cases outcome with
      | nothing => exact Session.unaffected_pure _
      | failed error text => exact Session.unaffected_throw _
      | given b =>
          exact Session.unaffected_bind (Session.unaffected_lift (unaffected_openBus b)) fun _ =>
            Session.unaffected_bind (Session.unaffected_lift (unaffected_adoptAs name (.bus b)))
            fun _ => Session.unaffected_pure _
  | isConnected name =>
      exact Session.unaffected_bind (hbus name) fun _ =>
        Session.unaffected_get (fun _ _ _ => rfl) fun _ => Session.unaffected_pure _
  | flush name =>
      exact Session.unaffected_bind (hbus name) fun _ =>
        Session.unaffected_bind (hrecord trivial) fun _ => Session.unaffected_pure _
  | dispatch name timeout =>
      exact Session.unaffected_bind (hbus name) fun _ =>
        Session.unaffected_bind (Session.unaffected_milliseconds _) fun _ =>
        Session.unaffected_bind (hrecord trivial) fun _ =>
        Session.unaffected_get (fun _ _ _ => rfl) fun _ => Session.unaffected_pure _
  | send name message =>
      exact Session.unaffected_bind (hbus name) fun b =>
        Session.unaffected_bind (Session.unaffected_subject message) fun i =>
        Session.unaffected_bind (Session.unaffected_call _) fun _ =>
        Session.unaffected_bind (hrecord trivial) fun _ =>
        Session.unaffected_bind (unaffected_assignSerial b i) fun _ => Session.unaffected_pure _
  | sendAndWait name connection message outcome timeout =>
      refine Session.unaffected_bind (hbus connection) fun b =>
        Session.unaffected_bind (Session.unaffected_subject message) fun i =>
        Session.unaffected_bind (Session.unaffected_milliseconds _) fun _ =>
        Session.unaffected_bind (hrecord trivial) fun _ =>
        Session.unaffected_bind (Session.unaffected_discard (unaffected_assignSerial b i))
        fun _ => ?_
      cases outcome with
      | nothing => exact Session.unaffected_pure _
      | failed error text => exact Session.unaffected_throw _
      | given reply =>
          exact Session.unaffected_bind (Session.unaffected_lift (unaffected_createMessage reply))
            fun _ => Session.unaffected_bind (Session.unaffected_lift
              (unaffected_adoptAs name _).discard) fun _ => Session.unaffected_pure _

/-! ## Things of every sort -/

namespace Session

theorem unaffected_readerLook (v : Validator) (r : Reader) (a : Aspect) :
    m.Unaffected (r.look v a).run := by
  cases a with
  | argumentType => exact unaffected_pure _
  | elementType => exact unaffected_pure _
  | signature => exact unaffected_bind (unaffected_attempt _) fun _ => unaffected_pure _
  | basic => exact unaffected_bind (unaffected_ofExcept _) fun _ => unaffected_pure _
  | object => exact unaffected_bind (unaffected_attempt _) fun _ => unaffected_pure _

theorem unaffected_lookAtMessage (i : MessageId) (property : String) :
    m.Unaffected (lookAtMessage i property).run := by
  refine unaffected_bind (unaffected_messageAt i) fun _ =>
    unaffected_get (fun _ _ _ => rfl) fun h => ?_
  dsimp only
  split
  · exact unaffected_bind (unaffected_ofExcept _) fun _ => unaffected_pure _
  · split
    · exact unaffected_bind (unaffected_attempt _) fun _ => unaffected_pure _
    · exact unaffected_pure _
    · exact unaffected_pure _
    · exact unaffected_lookAtMethod messageMethods property

theorem unaffected_lookAtIterator (it : NamedIterator) (property : String) :
    m.Unaffected (lookAtIterator it property).run := by
  unfold lookAtIterator
  split
  · exact unaffected_get (fun _ _ _ => rfl) fun _ => unaffected_readerLook _ _ _
  · exact unaffected_throw _
  · exact unaffected_lookAtMethod iteratorMethods property

theorem unaffected_lookAtPending (p : PendingId) (property : String) :
    m.Unaffected (lookAtPending p property).run := by
  unfold lookAtPending
  split
  · exact unaffected_bind (unaffected_completed p) fun _ => unaffected_pure _
  · exact unaffected_lookAtMethod pendingMethods property

theorem unaffected_lookAtBus (b property : String) : m.Unaffected (lookAtBus b property).run := by
  unfold lookAtBus
  split
  · exact unaffected_get (fun _ _ _ => rfl) fun _ => unaffected_pure _
  · exact unaffected_lookAtMethod connectionMethods property

theorem unaffected_lookAt (name property : String) : m.Unaffected (look name property).run := by
  refine unaffected_bind (unaffected_thing name) fun t => ?_
  cases t with
  | wrapper w =>
      refine unaffected_get (fun _ _ _ => rfl) fun h =>
        unaffected_get (fun _ _ _ => rfl) fun h' => ?_
      cases h.messageOf? (.wrapper w) with
      | some i => exact unaffected_lookAtMessage i property
      | none =>
          cases h'.busOf? (.wrapper w) with
          | some b => exact unaffected_lookAtBus b property
          | none => exact unaffected_throw _
  | pending p => exact unaffected_lookAtPending p property
  | handle c => exact unaffected_lookAtMethod handleMethods property
  | reader i =>
      exact unaffected_bind (unaffected_iteratorNamed name) fun it =>
        unaffected_lookAtIterator it property
  | writer i =>
      exact unaffected_bind (unaffected_iteratorNamed name) fun it =>
        unaffected_lookAtIterator it property

theorem unaffected_setOnMessage (i : MessageId) (property : String) (x : Value) :
    m.Unaffected (setOnMessage i property x).run := by
  unfold setOnMessage
  split
  · split
    · exact unaffected_lift (unaffected_modifyMessage i _)
    · exact unaffected_throw _
  · exact unaffected_lift (unaffected_modifyMessage i _)
  · exact unaffected_throw _

theorem unaffected_closeWriter (w : WriteIterator) : m.Unaffected w.close.run :=
  unaffected_bind (unaffected_draft w _) fun _ =>
    unaffected_bind (unaffected_writeOn w.message _) fun _ => unaffected_pure _

theorem unaffected_close (name : String) : m.Unaffected (close name).run := by
  refine unaffected_bind (unaffected_thing name) fun t => ?_
  cases t with
  | wrapper w =>
      exact unaffected_bind (unaffected_busNamed name) fun b =>
        unaffected_bind (unaffected_lift (unaffected_closeBus b)) fun _ => unaffected_pure _
  | pending p =>
      exact unaffected_bind (unaffected_lift (Host.unaffected_close p)) fun _ => unaffected_pure _
  | handle c => exact unaffected_throw _
  | reader i =>
      exact unaffected_bind (unaffected_writerNamed name) fun w =>
        unaffected_bind (unaffected_closeWriter w.2) fun _ => unaffected_pure _
  | writer i =>
      exact unaffected_bind (unaffected_writerNamed name) fun w =>
        unaffected_bind (unaffected_closeWriter w.2) fun _ => unaffected_pure _

theorem unaffected_drop (name : String) : m.Unaffected (drop name).run := by
  refine unaffected_bind (unaffected_thing name) fun t => ?_
  have hforget : m.Unaffected (modify fun h : Host => { h with names := h.names.erase name }) :=
    unaffected_modify fun _ _ _ => rfl
  exact unaffected_bind (unaffected_lift hforget) fun _ => unaffected_lift (unaffected_letGo t)

end Session

theorem unaffected_thingStep (s : ThingStep) : m.Unaffected s.perform.run := by
  cases s with
  | look name property => exact Session.unaffected_lookAt name property
  | set name property x =>
      refine Session.unaffected_bind (Session.unaffected_thing name) fun t =>
        Session.unaffected_bind (Session.unaffected_build x) fun x =>
        Session.unaffected_get (fun _ _ _ => rfl) fun h => ?_
      cases h.messageOf? t with
      | none => exact Session.unaffected_throw _
      | some i =>
          exact Session.unaffected_bind (Session.unaffected_setOnMessage i property x) fun _ =>
            Session.unaffected_pure _
  | close name =>
      exact Session.unaffected_bind (Session.unaffected_discard (Session.unaffected_close name))
        fun _ => Session.unaffected_pure _
  | closeInside name =>
      refine Session.unaffected_bind (Session.unaffected_close name) fun parent => ?_
      cases parent with
      | none => exact Session.unaffected_pure _
      | some parent =>
          exact Session.unaffected_get (fun _ _ _ => rfl) fun _ => Session.unaffected_pure _
  | drop name =>
      exact Session.unaffected_bind (Session.unaffected_drop name) fun _ =>
        Session.unaffected_pure _

end DBusHost
