import DBusHost.Session.Script
import DBusHost.Proofs.Session.Preservation

/-!
# Parts of a session that do little

Looking up what a name stands for leaves the state as it is.  Reading and writing messages,
and everything about buses and iterators, changes nothing that has to do with pending calls.
-/

namespace DBusHost

open Host

namespace Event

/-- The event is calm, and nobody waits for a call. -/
def IsSerene : Event → Prop
  | .blocked _ => False
  | e => e.IsCalm

theorem IsSerene.isCalm {e : Event} (he : e.IsSerene) : e.IsCalm := by
  cases e <;> first | exact he | exact he.elim

theorem IsSerene.ne_blocked {e : Event} (he : e.IsSerene) (c : CallId) : e ≠ .blocked c := by
  rintro rfl
  exact he

end Event

namespace Session

/-! ## Parts that change nothing -/

theorem reads_thing (name : String) : Moves (· = ·) (thing name).run := by
  refine moves_get ?_
  intro h
  cases h.names.get? name with
  | none => rfl
  | some t => rfl

theorem mem_of_get? {α : Type} {t : Table String α} {name : String} {x : α}
    (hx : t.get? name = some x) : (name, x) ∈ t := by
  obtain ⟨⟨key, y⟩, hfind, rfl⟩ := Option.map_eq_some_iff.mp hx
  have hkey := List.find?_some hfind
  simp only [decide_eq_true_eq] at hkey
  exact hkey ▸ List.mem_of_find?_eq_some hfind

theorem run_thing (name : String) (h : Host) :
    (thing name).run.run h = (match h.names.get? name with
      | some t => pure t
      | none => throw .noSuchKey : Session Thing).run.run h := rfl

theorem mem_of_thing {name : String} {t : Thing} {h : Host}
    (ht : ((thing name).run.run h).1 = .ok t) : (name, t) ∈ h.names := by
  rw [run_thing] at ht
  cases hget : h.names.get? name with
  | none =>
      rw [hget] at ht
      cases ht
  | some u =>
      rw [hget] at ht
      cases ht
      exact mem_of_get? hget

theorem reads_build (r : Recipe) : Moves (· = ·) (build r).run := fun _ => rfl

theorem reads_messageAt (m : MessageId) : Moves (· = ·) (messageAt m).run := by
  refine moves_get ?_
  intro h
  cases h.message? m with
  | none => rfl
  | some message => rfl

theorem reads_labelled (name : String) : Moves (· = ·) (labelled name).run := by
  refine moves_get ?_
  intro h
  cases h.labels.get? name with
  | none => rfl
  | some r => rfl

theorem reads_lineNamed (name : String) : Moves (· = ·) (lineNamed name).run := by
  refine moves_get ?_
  intro h
  cases h.lines.get? name with
  | none => rfl
  | some c => rfl

theorem run_lineNamed (name : String) (h : Host) :
    (lineNamed name).run.run h = (match h.lines.get? name with
      | some c => pure c
      | none => throw .noSuchKey : Session CallId).run.run h := rfl

theorem mem_of_lineNamed {name : String} {c : CallId} {h : Host}
    (hc : ((lineNamed name).run.run h).1 = .ok c) : (name, c) ∈ h.lines := by
  rw [run_lineNamed] at hc
  cases hget : h.lines.get? name with
  | none =>
      rw [hget] at hc
      cases hc
  | some d =>
      rw [hget] at hc
      cases hc
      exact mem_of_get? hget

theorem reads_messageNamed (name : String) : Moves (· = ·) (messageNamed name).run := by
  refine moves_get fun h => moves_bind (reads_thing name) (fun t => ?_) h
  split
  · exact moves_pure _
  · exact moves_throw _

theorem reads_busNamed (name : String) : Moves (· = ·) (busNamed name).run := by
  refine moves_get fun h => moves_bind (reads_thing name) (fun t => ?_) h
  split
  · exact moves_pure _
  · exact moves_throw _

theorem reads_handleNamed (name : String) : Moves (· = ·) (handleNamed name).run := by
  refine moves_bind (reads_thing name) ?_
  intro t
  split
  · exact moves_pure _
  · exact moves_throw _

theorem mem_of_handleNamed {name : String} {c : CallId} {h : Host}
    (hc : ((handleNamed name).run.run h).1 = .ok c) : (name, .handle c) ∈ h.names := by
  obtain ⟨t, h', hrun, hc⟩ := exists_of_bind_ok hc
  have ht : (name, t) ∈ h.names := mem_of_thing (by rw [hrun])
  cases t with
  | handle d =>
      cases hc
      exact ht
  | wrapper w => cases hc
  | pending p => cases hc
  | reader i => cases hc
  | writer i => cases hc

theorem reads_attachedCall (c : CallId) : Moves (· = ·) (attachedCall c).run := by
  refine moves_get ?_
  intro h
  split <;> rfl

/-- A call that a handle refers to exists. -/
theorem eq_of_attachedCall {c d : CallId} {h : Host}
    (hd : ((attachedCall c).run.run h).1 = .ok d) : d = c ∧ c < h.calls.length := by
  change ((if (h.call c).attached then pure c else throw .noSuchKey : Session CallId).run.run
    h).1 = .ok d at hd
  cases hattached : (h.call c).attached with
  | false =>
      rw [hattached] at hd
      cases hd
  | true =>
      rw [hattached] at hd
      cases hd
      refine ⟨rfl, Nat.lt_of_not_le fun hge => ?_⟩
      rw [call_of_length_le hge] at hattached
      cases hattached

theorem reads_iteratorNamed (name : String) : Moves (· = ·) (iteratorNamed name).run := by
  refine moves_get fun h => moves_bind (reads_thing name) (fun t => ?_) h
  cases t with
  | reader i =>
      simp only
      split
      · exact moves_pure _
      · exact moves_throw _
  | writer i =>
      simp only
      split
      · exact moves_pure _
      · exact moves_throw _
  | wrapper w => exact moves_throw _
  | pending p => exact moves_throw _
  | handle c => exact moves_throw _

theorem reads_readerNamed (name : String) : Moves (· = ·) (readerNamed name).run := by
  refine moves_bind (reads_iteratorNamed name) ?_
  intro t
  cases t with
  | reading i r => exact moves_pure _
  | writing i w => exact moves_throw _

theorem reads_writerNamed (name : String) : Moves (· = ·) (writerNamed name).run := by
  refine moves_bind (reads_iteratorNamed name) ?_
  intro t
  cases t with
  | reading i r => exact moves_throw _
  | writing i w => exact moves_pure _

theorem reads_loopedOver (name : String) : Moves (· = ·) (loopedOver name).run := by
  refine moves_bind (reads_thing name) ?_
  intro t
  cases t with
  | reader i => exact reads_readerNamed name
  | writer i => exact reads_readerNamed name
  | wrapper w => exact moves_throw _
  | pending p => exact moves_throw _
  | handle c => exact moves_throw _

theorem reads_milliseconds (timeout : Option Recipe) :
    Moves (· = ·) (milliseconds timeout).run := by
  cases timeout with
  | none => exact moves_pure _
  | some timeout => exact moves_bind (reads_build timeout) fun x => moves_ofExcept _

theorem reads_lookAtMethod (methods : List String) (property : String) :
    Moves (· = ·) (lookAtMethod methods property).run := by
  unfold lookAtMethod
  split
  · exact moves_pure _
  · exact moves_throw _

end Session

theorem reads_message (s : Subject) : Moves (· = ·) s.message.run := by
  cases s with
  | named name =>
      refine Session.moves_get fun h =>
        Session.moves_bind (Session.reads_thing name) (fun t => ?_) h
      split
      · exact Session.moves_pure _
      · exact Session.moves_throw _
  | foreign => exact Session.moves_throw _

theorem reads_openCall (p : PendingId) : Moves (· = ·) (Pending.openCall p).run := by
  refine Session.moves_get ?_
  intro h
  simp only
  split <;> rfl

theorem eq_of_openCall {p : PendingId} {c : CallId} {h : Host}
    (hc : ((Pending.openCall p).run.run h).1 = .ok c) :
    (h.pending p).holding = true ∧ c = (h.pending p).call := by
  change ((if (h.pending p).holding then pure (h.pending p).call
    else throw .callClosed : Session CallId).run.run h).1 = .ok c at hc
  cases hholding : (h.pending p).holding with
  | false =>
      rw [hholding] at hc
      cases hc
  | true =>
      rw [hholding] at hc
      cases hc
      exact ⟨rfl, rfl⟩

theorem reads_completed (p : PendingId) : Moves (· = ·) (Pending.completed p).run :=
  Session.moves_bind (reads_openCall p) fun _ _ => rfl

theorem reads_draft (w : WriteIterator) (misuse : Misuse) :
    Moves (· = ·) (w.draft misuse).run := by
  unfold WriteIterator.draft
  split
  · exact Session.moves_pure _
  · exact Session.moves_throw _

theorem reads_onlyChar (s : String) : Moves (· = ·) (onlyChar s).run := by
  unfold onlyChar
  split
  · exact Session.moves_pure _
  · exact Session.moves_throw _

/-! ## Parts that change nothing of importance -/

namespace Host

/-- The change is calm, and nobody has waited for a call meanwhile. -/
structure Serene (h h' : Host) : Prop extends Calm h h' where
  unawaited : ∃ es, h'.trace = h.trace ++ es ∧ ∀ e ∈ es, ∀ c, e ≠ .blocked c

instance : IsPreorder Host Serene where
  refl h := ⟨refl_of Calm h, [], (List.append_nil _).symm, by simp⟩
  trans _ _ _ hab hbc := ⟨trans_of Calm hab.toCalm hbc.toCalm,
    Event.appended_trans hab.unawaited hbc.unawaited⟩

theorem serene_of_core {h h' : Host} {es : List Event} (hcore : h'.core = h.core)
    (htrace : h'.trace = h.trace ++ es) (hes : ∀ e ∈ es, e.IsSerene) : Serene h h' :=
  ⟨calm_of_core hcore htrace fun e he => (hes e he).isCalm,
    es, htrace, fun e he => (hes e he).ne_blocked⟩

theorem serene_modify {f : Host → Host} (hcore : ∀ h, (f h).core = h.core)
    (htrace : ∀ h, (f h).trace = h.trace) : Moves Serene (modify f) :=
  fun h => serene_of_core (hcore h) ((htrace h).trans (List.append_nil _).symm) (by simp)

theorem serene_record {e : Event} (he : e.IsSerene) : Moves Serene (record e) :=
  fun _ => serene_of_core rfl rfl (by simpa using he)

theorem serene_succeeds (r : Routine) : Moves Serene (succeeds r) :=
  fun _ => serene_of_core rfl (List.append_nil _).symm (by simp)

theorem serene_modifyMessage (m : MessageId) (f : Message → Message) :
    Moves Serene (modifyMessage m f) := serene_modify (fun _ => rfl) fun _ => rfl

theorem serene_relabel (name : String) (r : Resource) : Moves Serene (relabel name r) :=
  serene_modify (fun _ => rfl) fun _ => rfl

theorem serene_label (name : String) (r : Resource) : Moves Serene (label name r) :=
  serene_modify (fun _ => rfl) fun _ => rfl

theorem serene_modifyBus (b : String) (f : Bus → Bus) : Moves Serene (modifyBus b f) :=
  serene_modify (fun _ => rfl) fun _ => rfl

theorem serene_closeBus (b : String) : Moves Serene (closeBus b) := by
  have hrecord : Moves Serene (record (.closed b)) := serene_record trivial
  exact hrecord.bind fun _ => serene_modifyBus b _

theorem serene_noteAction (n : Nat) (a : Except Fault Answer) : Moves Serene (noteAction n a) :=
  serene_modify (fun _ => rfl) fun _ => rfl

/-- A call that exists may be noted. -/
theorem calm_noteLine {h : Host} {c : CallId} (hc : c < h.calls.length) (name : String) :
    Calm h ((noteLine name c).run h).2 := by
  refine ⟨rfl, rfl, rfl, rfl, rfl, rfl, fun e he => ?_, rfl, rfl, rfl, [],
    (List.append_nil _).symm, by simp⟩
  rcases eq_or_mem_of_mem_put he with rfl | he
  · exact .inr hc
  · exact .inl he

end Host

theorem Moves.calm {α : Type} {w : StateM Host α} (hw : Moves Serene w) : Moves Calm w :=
  hw.mono fun _ _ hs => hs.toCalm

namespace Session

theorem serene_call (r : Routine) : Moves Serene (call r).run := by
  refine moves_bind (moves_lift (serene_succeeds r)) ?_
  intro ok
  cases ok with
  | false => exact moves_throw _
  | true => exact moves_pure _

theorem serene_attempt {α : Type} (a : Attempt α) : Moves Serene (attempt a).run :=
  fun _ => serene_of_core rfl (List.append_nil _).symm (by simp)

theorem serene_writeOn {α : Type} (m : MessageId) (w : Writing α) :
    Moves Serene (writeOn m w).run := by
  refine moves_bind (reads_messageAt m).of_eq ?_
  intro message
  refine moves_get ?_
  intro h
  refine serene_of_core rfl rfl ?_
  intro e he
  obtain ⟨call, -, rfl⟩ := List.mem_map.mp he
  trivial

theorem serene_assignSerial (b : String) (m : MessageId) :
    Moves Serene (assignSerial b m).run := by
  refine moves_bind (reads_messageAt m).of_eq ?_
  intro message
  split
  · exact moves_pure _
  · refine moves_get ?_
    intro h
    refine moves_bind (moves_lift (serene_modifyBus b _)) (fun _ => ?_) h
    exact moves_bind (moves_lift (serene_modifyMessage m _)) fun _ => moves_pure _

theorem serene_look (v : Validator) (r : Reader) (a : Aspect) : Moves Serene (r.look v a).run := by
  cases a with
  | argumentType => exact moves_pure _
  | elementType => exact moves_pure _
  | signature => exact moves_bind (serene_attempt _) fun _ => moves_pure _
  | basic => exact moves_bind (moves_ofExcept _).of_eq fun _ => moves_pure _
  | object => exact moves_bind (serene_attempt _) fun _ => moves_pure _

theorem serene_lookAtMessage (m : MessageId) (property : String) :
    Moves Serene (lookAtMessage m property).run := by
  refine moves_bind (reads_messageAt m).of_eq fun message => moves_get fun h => ?_
  cases HeaderField.ofName? property with
  | some field => exact moves_bind (moves_ofExcept _).of_eq (fun _ => moves_pure _) h
  | none =>
      simp only
      split
      · exact moves_bind (serene_attempt _) (fun _ => moves_pure _) h
      · exact moves_pure (R := Serene) _ h
      · exact moves_pure (R := Serene) _ h
      · exact (reads_lookAtMethod messageMethods property).of_eq h

theorem serene_lookAtIterator (it : NamedIterator) (property : String) :
    Moves Serene (lookAtIterator it property).run := by
  unfold lookAtIterator
  split
  · exact moves_get fun h => serene_look h.validator _ _ h
  · exact moves_throw _
  · exact (reads_lookAtMethod iteratorMethods property).of_eq

theorem serene_lookAtPending (p : PendingId) (property : String) :
    Moves Serene (lookAtPending p property).run := by
  unfold lookAtPending
  split
  · exact moves_bind (reads_completed p).of_eq fun _ => moves_pure _
  · exact (reads_lookAtMethod pendingMethods property).of_eq

theorem serene_lookAtBus (b : String) (property : String) :
    Moves Serene (lookAtBus b property).run := by
  unfold lookAtBus
  split
  · exact moves_get fun h => refl_of Serene h
  · exact (reads_lookAtMethod connectionMethods property).of_eq

/-- Sending a request is serene, apart from the handle, which refers to the call from then on. -/
theorem moves_sendForReply_of {R : Host → Host → Prop} [IsPreorder Host R] {c : CallId}
    (hserene : ∀ h h', Serene h h' → R h h')
    (hattach : Moves R (modifyCall c fun call => { call with attached := true }))
    (b : String) (m : MessageId) (ms : Int) : Moves R (sendForReply b m c ms).run := by
  have hsent : Moves Serene (record (.sentForReply b ms)) := serene_record trivial
  have hnumber : Moves R (assignSerial b m).run := (serene_assignSerial b m).mono hserene
  refine moves_bind ((serene_call .sendWithReply).mono hserene) fun _ => ?_
  refine moves_bind (moves_lift (hsent.mono hserene)) fun _ => moves_get fun h => ?_
  split
  · exact moves_bind (moves_discard hnumber) (fun _ => moves_bind (moves_lift hattach)
      fun _ => moves_pure _) h
  · exact refl_of R h

end Session

end DBusHost
