import DBusHost.Proofs.Session.References

/-!
# What is done with a call

The host calls routines of the native library on a call, and the call calls its functions back.
`Event.isUseOf` tells the events of both sorts, apart from waiting, which acts leave open.

In an orderly state an act either bypasses a pending call, so that the pending call and its call
stay as they are and nothing is done with the call, or it is one of four acts on them.
-/

namespace DBusHost

open Host

namespace Event

/-- Something other than waiting is done with the call. -/
def isUseOf (c : CallId) : Event → Bool
  | .notifySet d _ | .cancelled d | .unreferenced d | .stolen d _ | .notified d _
  | .freed d _ => d = c
  | _ => false

/-- The event is about no calls but those in `C`, and no call is given up or waited for. -/
def IsOn (C : CallId → Prop) : Event → Prop
  | .notifySet c _ | .cancelled c | .stolen c _ | .completed c | .notified c _
  | .freed c _ => C c
  | .unreferenced _ | .blocked _ => False
  | _ => True

theorem IsOn.isUseOf_eq_false {e : Event} {c : CallId} (he : e.IsOn (· ≠ c)) :
    e.isUseOf c = false := by
  cases e <;> simp_all [IsOn, isUseOf]

theorem IsCalm.isUseOf_eq_false {e : Event} (he : e.IsCalm) (c : CallId) :
    e.isUseOf c = false := by
  cases e <;> first | exact he.elim | rfl

end Event

/-- What the handle knows of a call, and what is registered with it. -/
def Call.terms (call : Call) := (call.kind, call.attached, call.registration, call.kept)

/-- The call of a pending call, and whether it is held. -/
def Pending.title (pending : Pending) := (pending.call, pending.holding)

namespace Host

section

variable {E : Event → Prop} {C : CallId → Prop} {h h' : Host} {c : CallId}

/-! ## What happens on the way -/

/-- Every event on the way is of one kind. -/
def Records (E : Event → Prop) (h h' : Host) : Prop :=
  ∃ es, h'.trace = h.trace ++ es ∧ ∀ e ∈ es, E e

instance (E : Event → Prop) : IsPreorder Host (Records E) where
  refl h := ⟨[], (List.append_nil _).symm, by simp⟩
  trans _ _ _ := Event.appended_trans

/-- Nothing but waiting is done with the call on the way. -/
abbrev Avoids (c : CallId) : Host → Host → Prop := Records fun e => e.isUseOf c = false

theorem records_of_trace_eq (htrace : h'.trace = h.trace) : Records E h h' :=
  ⟨[], by simpa using htrace, by simp⟩

theorem records_record {e : Event} (he : E e) : Moves (Records E) (record e) :=
  fun _ => ⟨[e], rfl, by simpa using he⟩

theorem Calm.avoids (hh : Calm h h') (c : CallId) : Avoids c h h' := by
  obtain ⟨es, htrace, hcalm⟩ := hh.trace
  exact ⟨es, htrace, fun e he => (hcalm e he).isUseOf_eq_false c⟩

/-! ## Handles and registrations stay -/

/-- The same pending calls are held, the handles and the registrations of all calls stay as they
are, and every event on the way is of one kind. -/
structure Upholds (E : Event → Prop) (h h' : Host) : Prop where
  size : h'.pendings.length = h.pendings.length
  pending : ∀ p, (h'.pending p).title = (h.pending p).title
  call : ∀ c, (h'.call c).terms = (h.call c).terms
  trace : Records E h h'

instance (E : Event → Prop) : IsPreorder Host (Upholds E) where
  refl h := ⟨rfl, fun _ => rfl, fun _ => rfl, refl_of (Records E) h⟩
  trans _ _ _ hab hbc := ⟨hbc.size.trans hab.size,
    fun p => (hbc.pending p).trans (hab.pending p), fun c => (hbc.call c).trans (hab.call c),
    trans_of (Records E) hab.trace hbc.trace⟩

theorem upholds_of_eq (hpendings : h'.pendings = h.pendings) (hcalls : h'.calls = h.calls)
    (htrace : Records E h h') : Upholds E h h' := by
  refine ⟨by rw [hpendings], fun p => ?_, fun c => ?_, htrace⟩
  · rw [Host.pending, hpendings]
    rfl
  · rw [Host.call, hcalls]
    rfl

theorem upholds_record {e : Event} (he : E e) : Moves (Upholds E) (record e) :=
  fun h => upholds_of_eq rfl rfl (records_record he h)

theorem upholds_modifyPending {f : Pending → Pending} (hf : ∀ x, (f x).title = x.title)
    (p : PendingId) : Moves (Upholds E) (modifyPending p f) := by
  refine fun h => ⟨List.length_modify .., fun q => ?_, fun _ => rfl, records_of_trace_eq rfl⟩
  rw [pending_modifyPending]
  split
  · exact hf _
  · rfl

theorem upholds_modifyCall {f : Call → Call} (hf : ∀ x, (f x).terms = x.terms) (c : CallId) :
    Moves (Upholds E) (modifyCall c f) := by
  refine fun h => ⟨rfl, fun _ => rfl, fun d => ?_, records_of_trace_eq rfl⟩
  rw [call_modifyCall]
  split
  · exact hf _
  · rfl

theorem upholds_takeSlot (p : PendingId) : Moves (Upholds E) (takeSlot p) := by
  have hempty : Moves (Upholds E)
      (modifyPending p fun pending => { pending with slot := .absent }) :=
    upholds_modifyPending (fun _ => by rfl) p
  exact hempty

section

-- the events that are about no calls but those in `C` are of the kind
variable (hE : ∀ e : Event, e.IsOn C → E e)

include hE

theorem upholds_freeData (hc : C c) (r : Registration) : Moves (Upholds E) (freeData c r) :=
  Callbacks.moves_freeData (moves_dropData upholds_takeSlot)
    (fun x => upholds_record (hE (.freed c x) hc)) r

theorem upholds_cancelCall (hc : C c) : Moves (Upholds E) (cancelCall c) :=
  moves_cancelCall_of (upholds_record (hE (.cancelled c) hc))
    (upholds_modifyCall (fun _ => by rfl) c)

theorem upholds_cancel {p : PendingId}
    (hc : (h.pending p).holding = true → C (h.pending p).call) :
    Upholds E h ((Pending.cancel p).run h).2 := by
  rw [Pending.cancel, StateT.run_bind, StateT.run_get, pure_bind]
  cases hholding : (h.pending p).holding with
  | false =>
      simp only [hholding]
      exact (upholds_takeSlot p).discard h
  | true =>
      simp only [hholding, if_true]
      exact (upholds_cancelCall hE (hc hholding)).bind (fun _ => (upholds_takeSlot p).discard) h

theorem upholds_stealReply (hc : C c) : Moves (Upholds E) (stealReply c) :=
  moves_stealReply_of (fun m => upholds_record (hE (.stolen c m) hc))
    (upholds_modifyCall (fun _ => by rfl) c)

theorem upholds_lock : Moves (Upholds E) lock := by
  have hdepth : Moves (Upholds E)
      (modify fun h : Host => { h with lockDepth := h.lockDepth + 1 }) :=
    fun _ => upholds_of_eq rfl rfl (records_of_trace_eq rfl)
  exact hdepth.bind fun _ => upholds_record (hE .locked trivial)

theorem upholds_unlock : Moves (Upholds E) unlock := by
  have hdepth : Moves (Upholds E)
      (modify fun h : Host => { h with lockDepth := h.lockDepth - 1 }) :=
    fun _ => upholds_of_eq rfl rfl (records_of_trace_eq rfl)
  exact hdepth.bind fun _ => upholds_record (hE .unlocked trivial)

theorem upholds_countBy_record {e : Event} (he : e.IsOn C) (r : Resource) (n : Int) :
    Moves (Upholds E) (do countBy r n; record e) := by
  have hcount : Moves (Upholds E) (countBy r n) :=
    fun _ => upholds_of_eq rfl rfl (records_of_trace_eq rfl)
  exact hcount.bind fun _ => upholds_record (hE e he)

theorem upholds_adopt (r : Resource) : Moves (Upholds E) (adopt r) := by
  intro h
  have hadopted := upholds_record (hE (.adopted r) trivial) h
  rcases adopt_cases r h with ⟨w, -, hrun⟩ | ⟨-, hrun⟩
  · rw [hrun]
    exact trans_of (Upholds E) hadopted
      (upholds_countBy_record hE (e := .released r) trivial r (-1) _)
  · rw [hrun]
    exact ⟨hadopted.size, hadopted.pending, hadopted.call, hadopted.trace⟩

theorem upholds_letGoWrapper (w : WrapperId) : Moves (Upholds E) (letGoWrapper w) := by
  intro h
  rcases letGoWrapper_cases w h with ⟨hrun, -⟩ | ⟨r, -, -, hrun⟩
  · rw [hrun]
    exact refl_of (Upholds E) h
  · have hbury : Upholds E h (h.bury w) := upholds_of_eq rfl rfl (records_of_trace_eq rfl)
    rw [hrun]
    exact trans_of (Upholds E) hbury
      (upholds_countBy_record hE (e := .released r) trivial r (-1) _)

theorem upholds_leave : Moves (Upholds E) leave := by
  have hframes : Moves (Upholds E) (modify fun h : Host => { h with frames := h.frames.tail }) :=
    fun _ => upholds_of_eq rfl rfl (records_of_trace_eq rfl)
  exact (upholds_unlock hE).bind fun _ => hframes

theorem upholds_approach (hc : C c) (p : PendingId) : Moves (Upholds E) (approach c p) := by
  refine (upholds_lock hE).bind fun _ => (upholds_takeSlot p).bind fun reaction =>
    (upholds_stealReply hE hc).bind fun reply => ?_
  cases reply with
  | none =>
      exact (upholds_record (hE (.warned _) trivial)).bind fun _ =>
        (upholds_record (hE (.logged ..) trivial)).bind fun _ =>
        (upholds_unlock hE).bind fun _ => moves_pure _
  | some m =>
      have hframe : ∀ f : Frame, Moves (Upholds E)
          (modify fun h : Host => { h with frames := f :: h.frames }) :=
        fun _ _ => upholds_of_eq rfl rfl (records_of_trace_eq rfl)
      exact (upholds_adopt hE _).bind fun _ => (hframe _).bind fun _ => moves_pure _

theorem upholds_greet (o : Option (PendingId × WrapperId × MessageId × Reaction)) :
    Moves (Upholds E) (greet o) := by
  unfold greet
  split
  · exact (upholds_record (hE (.started ..) trivial)).bind fun _ => moves_pure _
  · exact moves_pure _

/-- A reply that comes in changes no handle and no registration. -/
theorem upholds_opening (hc : C c) : Moves (Upholds E) (opening c) := by
  have hannounce : ∀ r, Moves (Upholds E) (announce c r) := by
    intro r
    unfold announce
    split
    · refine (upholds_record (hE (.notified c r.data) hc)).bind fun _ => ?_
      split
      · exact (upholds_approach hE hc _).bind fun o => upholds_greet hE o
      · exact moves_pure _
    · exact moves_pure _
  have hmark : Moves (Upholds E) (modifyCall c fun call => { call with completed := true }) :=
    upholds_modifyCall (fun _ => by rfl) c
  refine Moves.get fun h => ?_
  dsimp only
  split
  · exact (upholds_record (hE (.completed c) hc)).bind fun _ => hmark.bind fun _ => hannounce _
  · exact moves_pure _

/-! ## Registrations change -/

theorem registers_records (hc : C c) : unanswered.Registers c (Records E) where
  onFree := moves_dropData fun p h => (upholds_takeSlot p h).trace
  freed x := records_record (hE (.freed c x) hc)
  succeeds _ := records_of_trace_eq rfl
  notifySet b := records_record (hE (.notifySet c b) hc)
  registration _ _ := records_of_trace_eq rfl
  kept _ _ := records_of_trace_eq rfl

theorem records_setNotify (hc : C c) (r : Registration) : Moves (Records E) (setNotify c r) :=
  (registers_records hE hc).moves_setNotify r

section

-- giving up one of the calls is of the kind as well
variable (hgone : ∀ d, C d → E (.unreferenced d))

include hgone

theorem records_unreference (hc : C c) : Moves (Records E) (unreference c) :=
  (registers_records hE hc).moves_unreference (records_record (hgone c hc))
    fun _ => records_of_trace_eq rfl

theorem records_close {p : PendingId}
    (hc : (h.pending p).holding = true → C (h.pending p).call) :
    Records E h ((Pending.close p).run h).2 := by
  have hmodify : ∀ f, Moves (Records E) (modifyPending p f) := fun _ _ => records_of_trace_eq rfl
  have htake : Moves (Records E) (takeSlot p) := fun _ => records_of_trace_eq rfl
  rw [Pending.close, StateT.run_bind, StateT.run_get, pure_bind]
  cases hholding : (h.pending p).holding with
  | false =>
      simp only [hholding]
      exact (hmodify _).bind (fun _ => htake.discard) h
  | true =>
      simp only [hholding, if_true]
      exact (hmodify _).bind (fun _ => (records_unreference hE hgone (hc hholding)).bind
        fun _ => htake.discard) h

theorem records_register (hc : C c) (reaction : Reaction) :
    Moves (Records E) (Pending.register c reaction).run := by
  have habandon : ∀ p, Moves (Records E) (abandon c p) := by
    intro p
    have htake : Moves (Records E) (takeSlot p) := fun _ => records_of_trace_eq rfl
    have hcancel : Moves (Records E) (cancelCall c) :=
      (upholds_cancelCall hE hc).mono fun _ _ hu => hu.trace
    exact (records_record (hE (.logged ..) trivial)).bind fun _ => hcancel.bind fun _ =>
      (records_unreference hE hgone hc).bind fun _ => htake.discard
  intro h
  have henlist : Records E h ((enlist c reaction).run h).2 := records_of_trace_eq rfl
  have hset := records_setNotify hE hc ⟨true, true, .slot h.pendings.length⟩
    ((enlist c reaction).run h).2
  rw [run_register, run_enroll]
  rcases hrun : (setNotify c ⟨true, true, .slot h.pendings.length⟩).run
    ((enlist c reaction).run h).2 with ⟨_ | _, h'⟩
  · rw [hrun] at hset
    exact trans_of (Records E) henlist (trans_of (Records E) hset (habandon _ h'))
  · rw [hrun] at hset
    exact trans_of (Records E) henlist (trans_of (Records E) hset (records_of_trace_eq rfl))

end

end

/-- What is done with other calls is not done with the call. -/
theorem isUseOf_eq_false_of_isOn : ∀ e : Event, e.IsOn (· ≠ c) → e.isUseOf c = false :=
  fun _ he => he.isUseOf_eq_false

theorem isUseOf_unreferenced {d : CallId} (hd : d ≠ c) :
    Event.isUseOf c (.unreferenced d) = false := decide_eq_false hd

/-! ## Acts that bypass a pending call -/

/-- The pending call and its call stay as they are, and nothing but waiting is done with the
call. -/
structure Bypasses (p : PendingId) (h h' : Host) : Prop where
  pending : h'.pending p = h.pending p
  call : h'.call (h.pending p).call = h.call (h.pending p).call
  avoids : Avoids (h.pending p).call h h'

/-- The act is one on a pending call or on its call. -/
inductive Concerns (h : Host) (p : PendingId) : Host → Prop
  | cancel : Concerns h p ((Pending.cancel p).run h).2
  | close : Concerns h p ((Pending.close p).run h).2
  | free : Concerns h p
      ((freeData (h.pending p).call (h.call (h.pending p).call).registration).run h).2
  | opening : Concerns h p ((opening (h.pending p).call).run h).2

theorem Touches.bypasses {P : PendingId → Prop} {p : PendingId} (hh : Touches P C h h')
    (hp : ¬ P p) (hc : ¬ C (h.pending p).call) (ha : Avoids (h.pending p).call h h') :
    Bypasses p h h' :=
  ⟨hh.pending p hp, hh.call _ hc, ha⟩

/-- Registering with a call that nobody has claimed bypasses all pending calls there are. -/
theorem Orderly.bypasses_register {p : PendingId} (ho : h.Orderly) (hp : p < h.pendings.length)
    (hc : h.IsUnclaimed c) (reaction : Reaction) :
    Bypasses p h ((Pending.register c reaction).run.run h).2 := by
  have hne : c ≠ (h.pending p).call := (hc.loose.2 p hp).symm
  have henroll := (ho.enlisted hc reaction).touches_enroll (ho.enlist hc)
  have hrecords := records_register isUseOf_eq_false_of_isOn
    (fun _ hd => isUseOf_unreferenced hd) hne reaction h
  rw [run_register] at hrecords ⊢
  refine ⟨?_, henroll.call _ hne.symm, hrecords⟩
  rw [henroll.pending p (Nat.ne_of_lt hp), pending_enlist_of_lt hp]

/-- The reply of another call bypasses the pending call. -/
theorem Orderly.bypasses_opening {p : PendingId} (ho : h.Orderly) (hc : c < h.calls.length)
    (hne : c ≠ (h.pending p).call) : Bypasses p h ((Host.opening c).run h).2 := by
  have havoids := (upholds_opening isUseOf_eq_false_of_isOn hne h).trace
  cases hready : (h.call c).isReady with
  | false =>
      rw [opening_of_not_isReady hready]
      exact ⟨rfl, rfl, refl_of (Avoids _) h⟩
  | true =>
      have hmark : ((Host.mark c).run h).2.call (h.pending p).call = h.call (h.pending p).call := by
        rw [call_mark, if_neg fun hcall => hne hcall.1]
      have hpassed : ∀ {P : PendingId → Prop} {h'}, ¬ P p →
          Touches P (· = c) ((Host.mark c).run h).2 h' →
          h'.pending p = h.pending p ∧ h'.call (h.pending p).call = h.call (h.pending p).call :=
        fun hp hh => ⟨hh.pending p hp, (hh.call _ hne.symm).trans hmark⟩
      have hother : ∀ {q}, (h.pending q).call = c → ¬ p = q := by
        rintro q hqc rfl
        exact hne hqc.symm
      rcases ho.opening_cases hc hready with ⟨-, hh⟩ | ⟨q, hq, hqc, -, ⟨hh, -⟩ | hstart⟩
      · obtain ⟨hpending, hcall⟩ := hpassed not_false hh
        exact ⟨hpending, hcall, havoids⟩
      · obtain ⟨hpending, hcall⟩ := hpassed (P := (· = q)) (hother hqc) hh
        exact ⟨hpending, hcall, havoids⟩
      · obtain ⟨id, actions, m, w, h', -, -, hs, hopening⟩ := hstart
        obtain ⟨hpending, hcall⟩ := hpassed (P := (· = q)) (hother hqc) hs.touches
        rw [hopening] at havoids ⊢
        exact ⟨hpending, hcall, havoids⟩

/-- What is done to other pending calls bypasses the pending call. -/
theorem Touches.bypasses_of_ne {p q : PendingId} (ho : h.Orderly) (hp : p < h.pendings.length)
    (hq : q < h.pendings.length) (hne : q ≠ p)
    (hh : Touches (· = q) (· = (h.pending q).call) h h') (ha : Avoids (h.pending p).call h h') :
    Bypasses p h h' :=
  hh.bypasses hne.symm (fun hcall => hne (ho.distinct p hp q hq hcall).symm) ha

theorem Orderly.call_ne {p q : PendingId} (ho : h.Orderly) (hp : p < h.pendings.length)
    (hq : q < h.pendings.length) (hne : q ≠ p) : (h.pending q).call ≠ (h.pending p).call :=
  fun hcall => hne (ho.distinct q hq p hp hcall)

/-- Freeing the data of another call bypasses the pending call. -/
theorem Orderly.bypasses_freeData {p : PendingId} (ho : h.Orderly)
    (hne : c ≠ (h.pending p).call) :
    Bypasses p h ((freeData c (h.call c).registration).run h).2 := by
  cases hfrees : (h.call c).registration.frees with
  | false =>
      rw [Callbacks.freeData_of_not_frees _ hfrees]
      exact ⟨rfl, rfl, refl_of (Avoids _) h⟩
  | true =>
      have hc : c < h.calls.length := Nat.lt_of_not_le fun hge => by
        rw [call_of_length_le hge] at hfrees
        exact Bool.false_ne_true hfrees
      have hh : Touches (fun q => (h.pending q).call = c) (· = c) h
          ((freeData c (h.call c).registration).run h).2 :=
        touches_freeData hc fun q hq => (ho.registered c q hq).symm
      exact hh.bypasses hne.symm hne.symm (upholds_freeData isUseOf_eq_false_of_isOn hne _ h).trace

end

end Host

open Host

variable {h h' : Host} {p : PendingId}

/-- What an act can do to a pending call in an orderly state. -/
theorem Act.bypasses_or_concerns (ha : Act h h') (ho : h.Orderly) (hp : p < h.pendings.length) :
    Bypasses p h h' ∨ Concerns h p h' := by
  have hneutral : ∀ {α : Type} {w : StateM Host α},
      Moves (Upholds fun e => e.isUseOf (h.pending p).call = false) w →
      Touches (fun _ => False) (fun _ => False) h (w.run h).2 → Bypasses p h (w.run h).2 :=
    fun hw hh => hh.bypasses id id (hw h).trace
  have hsame : ∀ {h'}, h'.trace = h.trace →
      Touches (fun _ => False) (fun _ => False) h h' → Bypasses p h h' :=
    fun htrace hh => hh.bypasses id id (records_of_trace_eq htrace)
  have hloose : ∀ {c h'}, h.IsLoose c → Touches (fun _ => False) (· = c) h h' →
      Avoids (h.pending p).call h h' → Bypasses p h h' :=
    fun hc hh hav => hh.bypasses id (hc.2 p hp) hav
  have hgone : ∀ c, c ≠ (h.pending p).call →
      Event.isUseOf (h.pending p).call (.unreferenced c) = false :=
    fun _ hc => isUseOf_unreferenced hc
  cases ha with
  | calm hcalm =>
      have hh : Touches (fun _ => False) (fun _ => False) h h' := hcalm.touches
      exact .inl (hh.bypasses id id (hcalm.avoids _))
  | create r =>
      exact .inl (hneutral (upholds_countBy_record isUseOf_eq_false_of_isOn
        (e := .created r) trivial r 1) (touches_create r))
  | share r =>
      exact .inl (hneutral (upholds_countBy_record isUseOf_eq_false_of_isOn
        (e := .shared r) trivial r 1) (touches_share r))
  | adopt r => exact .inl (hneutral (upholds_adopt isUseOf_eq_false_of_isOn r) (touches_adopt r))
  | letGoWrapper w =>
      exact .inl (hneutral (upholds_letGoWrapper isUseOf_eq_false_of_isOn w)
        (touches_letGoWrapper w))
  | name s t ht => exact .inl (hsame rfl (touches_name ht))
  | forget s => exact .inl (hsame rfl (touches_forget s))
  | wait ps => exact .inl (hsame rfl (touches_wait ps))
  | createCall k reply attached =>
      have hh : Touches (fun _ => False) (· = h.calls.length) h _ :=
        touches_createCall k reply attached
      exact .inl (hh.bypasses id (Nat.ne_of_lt (ho.owned p hp)) (records_of_trace_eq rfl))
  | attach hc =>
      exact .inl (hloose hc.loose
        (touches_modifyCall rfl (fun _ => ⟨rfl, rfl⟩) fun _ hp => .inl hp)
        (records_of_trace_eq rfl))
  | register hc reaction => exact .inl (ho.bypasses_register hp hc reaction)
  | cancel q =>
      rcases Nat.lt_or_ge q h.pendings.length with hq | hq
      · by_cases hqp : q = p
        · subst hqp
          exact .inr .cancel
        · exact .inl (((ho.owns hq).touches_cancel rfl fun _ => rfl).bypasses_of_ne ho hp hq hqp
            (upholds_cancel isUseOf_eq_false_of_isOn fun _ => ho.call_ne hp hq hqp).trace)
      · rw [cancel_of_length_le hq]
        exact .inl (hsame rfl (touches_self _ _ h))
  | close q =>
      rcases Nat.lt_or_ge q h.pendings.length with hq | hq
      · by_cases hqp : q = p
        · subst hqp
          exact .inr .close
        · exact .inl (((ho.owns hq).touches_close rfl fun _ => rfl).bypasses_of_ne ho hp hq hqp
            (records_close isUseOf_eq_false_of_isOn hgone fun _ => ho.call_ne hp hq hqp))
      · rw [close_of_length_le hq]
        exact .inl (hsame rfl (touches_self _ _ h))
  | free c =>
      by_cases hc : c = (h.pending p).call
      · subst hc
        exact .inr .free
      · exact .inl (ho.bypasses_freeData hc)
  | @opening c hlt =>
      by_cases hc : c = (h.pending p).call
      · subst hc
        exact .inr .opening
      · exact .inl (ho.bypasses_opening hlt hc)
  | leave => exact .inl (hneutral (upholds_leave isUseOf_eq_false_of_isOn) touches_leave)
  | setNotify hc notifies frees x =>
      exact .inl (hloose hc (touches_setNotify rfl hc.1
        (fun q hq => absurd hq (ho.data_ne_slot hc q)) (by simp))
        (records_setNotify isUseOf_eq_false_of_isOn (hc.2 p hp).symm _ h))
  | cancelCall hc =>
      exact .inl (hloose hc ((ho.owns_none hc).touches_cancelCall rfl)
        (upholds_cancelCall isUseOf_eq_false_of_isOn (hc.2 p hp).symm h).trace)
  | stealReply hc =>
      exact .inl (hloose hc (touches_stealReply rfl)
        (upholds_stealReply isUseOf_eq_false_of_isOn (hc.2 p hp).symm h).trace)
  | unreference hc =>
      exact .inl (hloose hc ((ho.owns_none hc).touches_unreference rfl)
        (records_unreference isUseOf_eq_false_of_isOn hgone (hc.2 p hp).symm h))

end DBusHost
