import DBusHost.Proofs.Session.Calls

/-!
# Computations that leave references alone

A computation is quiet if it changes nothing that has to do with references to native objects.
Everything that is done to calls and to pending calls is quiet, apart from the delivery of
replies.
-/

namespace DBusHost

namespace Event

/-- The native object whose references the event is about. -/
def resource? : Event → Option Resource
  | created r | shared r | adopted r | released r => some r
  | _ => none

theorem IsCalm.resource? {e : Event} (he : e.IsCalm) : e.resource? = none := by
  cases e <;> first | exact he.elim | rfl

theorem IsOfCall.resource? {e : Event} (he : e.IsOfCall) : e.resource? = none := by
  cases e <;> first | exact he.elim | rfl

end Event

namespace Host

variable {h h' : Host}

/-- Nothing has changed that has to do with references to native objects. -/
structure Quiet (h h' : Host) : Prop where
  references : h'.references = h.references
  wrappers : h'.wrappers = h.wrappers
  names : h'.names = h.names
  frames : h'.frames = h.frames
  trace : ∃ es, h'.trace = h.trace ++ es ∧ ∀ e ∈ es, e.resource? = none

instance : IsPreorder Host Quiet where
  refl h := ⟨rfl, rfl, rfl, rfl, [], by simp⟩
  trans _ _ _ hab hbc := ⟨hbc.references.trans hab.references, hbc.wrappers.trans hab.wrappers,
    hbc.names.trans hab.names, hbc.frames.trans hab.frames,
    Event.appended_trans hab.trace hbc.trace⟩

theorem Calm.quiet (hh : Calm h h') : Quiet h h' := by
  obtain ⟨es, hes, hcalm⟩ := hh.trace
  exact ⟨hh.references, hh.wrappers, hh.names, hh.frames, es, hes,
    fun e he => (hcalm e he).resource?⟩

/-- The parts of a state that have to do with references to native objects. -/
def ledger (h : Host) := (h.references, h.wrappers, h.names, h.frames, h.trace)

theorem quiet_of_ledger (hledger : h'.ledger = h.ledger) : Quiet h h' := by
  simp only [ledger, Prod.mk.injEq] at hledger
  obtain ⟨hreferences, hwrappers, hnames, hframes, htrace⟩ := hledger
  exact ⟨hreferences, hwrappers, hnames, hframes, [], by simpa using htrace, by simp⟩

/-! ## Quiet computations -/

theorem quiet_modify {f : Host → Host} (hf : ∀ h, (f h).ledger = h.ledger) :
    Moves Quiet (modify f) := fun h => quiet_of_ledger (hf h)

theorem quiet_record {e : Event} (he : e.resource? = none) : Moves Quiet (record e) :=
  fun _ => ⟨rfl, rfl, rfl, rfl, [e], rfl, by simpa using he⟩

theorem quiet_lock : Moves Quiet lock := by
  have hdepth : Moves Quiet (modify fun h : Host => { h with lockDepth := h.lockDepth + 1 }) :=
    quiet_modify fun _ => rfl
  exact hdepth.bind fun _ => quiet_record rfl

theorem quiet_unlock : Moves Quiet unlock := by
  have hdepth : Moves Quiet (modify fun h : Host => { h with lockDepth := h.lockDepth - 1 }) :=
    quiet_modify fun _ => rfl
  exact hdepth.bind fun _ => quiet_record rfl

instance : AdmitsCalls Quiet where
  serene hserene := hserene.quiet
  record he := quiet_record he.resource?
  change _ _ _ _ _ := quiet_of_ledger rfl

end Host

end DBusHost
