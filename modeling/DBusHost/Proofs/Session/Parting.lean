import DBusHost.Proofs.Session.Runs
import DBusHost.Proofs.Session.Calls
import DBusHost.Proofs.Session.Usage

/-!
# Calls that have been given up

A pending call that has given its call up stays so, and the call is not given up again.  If
nothing is registered with the call any more, nothing at all is done with it, whatever happens.
Nor does anybody wait for it, since the pending call refuses to.
-/

namespace DBusHost

open Host

section

variable {h h' : Host} {p : PendingId} {c : CallId}

namespace Host

/-- The pending call has given its call up. -/
structure Parted (h : Host) (p : PendingId) (c : CallId) : Prop where
  exists_pending : p < h.pendings.length
  pending : h.pending p = ⟨c, false, .absent⟩
  kind : (h.call c).kind = .native
  attached : (h.call c).attached = false

/-- The pending call has given its call up, and nothing is registered with the call. -/
structure Detached (h : Host) (p : PendingId) (c : CallId) : Prop extends Parted h p c where
  registration : (h.call c).registration = .none

/-! ## A pending call that has given its call up -/

theorem modifyPending_of_eq {f : Pending → Pending} (hf : f (h.pending p) = h.pending p) :
    (modifyPending p f).run h = ((), h) := by
  have hsame : h.pendings.modify p f = h.pendings := by
    refine List.ext_getElem? fun q => ?_
    rw [List.getElem?_modify]
    by_cases hpq : p = q
    · subst hpq
      cases hx : h.pendings[p]? with
      | none => rfl
      | some x =>
          have hp : h.pending p = x := by simp [pending, List.getD_eq_getElem?_getD, hx]
          simp [hp ▸ hf]
    · simp [hpq]
  change ((), { h with pendings := h.pendings.modify p f }) = ((), h)
  rw [hsame]

theorem takeSlot_of_eq_absent (hslot : (h.pending p).slot = .absent) :
    ((takeSlot p).run h).2 = h := by
  refine congrArg Prod.snd (modifyPending_of_eq (h := h) (p := p)
    (f := fun pending => { pending with slot := .absent }) ?_)
  rw [← hslot]

/-- Cancelling and closing do nothing any more. -/
theorem Parted.cancel (hh : Parted h p c) : (Pending.cancel p).run h = ((), h) := by
  have htake := takeSlot_of_eq_absent (h := h) (p := p) (by rw [hh.pending])
  rw [Pending.cancel, StateT.run_bind, StateT.run_get, pure_bind]
  simp only [hh.pending]
  exact Prod.ext rfl htake

theorem Parted.close (hh : Parted h p c) : (Pending.close p).run h = ((), h) := by
  have htake := takeSlot_of_eq_absent (h := h) (p := p) (by rw [hh.pending])
  have hlet : (modifyPending p fun pending => { pending with holding := false }).run h = ((), h) :=
    modifyPending_of_eq (by rw [hh.pending])
  rw [Pending.close, StateT.run_bind, StateT.run_get, pure_bind, StateT.run_bind]
  simp only [hh.pending, hlet]
  exact Prod.ext rfl htake

theorem Parted.openCall (hh : Parted h p c) :
    (Pending.openCall p).run.run h = (.error .callClosed, h) := by
  change (if (h.pending p).holding then pure (h.pending p).call
    else throw .callClosed : Session CallId).run.run h = _
  rw [hh.pending]
  rfl

theorem Parted.block (hh : Parted h p c) (run : Reacting) :
    (Pending.block run p).run.run h = (.error .callClosed, h) := by
  rw [Pending.block, Session.run_bind, hh.openCall]

theorem Parted.completed (hh : Parted h p c) :
    (Pending.completed p).run.run h = (.error .callClosed, h) := by
  rw [Pending.completed, Session.run_bind, hh.openCall]

/-! ## Acts on a call that has been given up -/

/-- The event gives no call up. -/
def NeverGivesUp (e : Event) : Prop := ∀ c, e ≠ .unreferenced c

theorem Upholds.kind {E : Event → Prop} (hu : Upholds E h h') (c : CallId) :
    (h'.call c).kind = (h.call c).kind := congrArg Prod.fst (hu.call c)

theorem Upholds.attached {E : Event → Prop} (hu : Upholds E h h') (c : CallId) :
    (h'.call c).attached = (h.call c).attached := congrArg (fun x => x.2.1) (hu.call c)

theorem Upholds.registration {E : Event → Prop} (hu : Upholds E h h') (c : CallId) :
    (h'.call c).registration = (h.call c).registration :=
  congrArg (fun x => x.2.2.1) (hu.call c)

theorem neverGivesUp_of_isOn : ∀ e : Event, e.IsOn (fun _ => True) → NeverGivesUp e := by
  intro e he c
  rintro rfl
  exact he

theorem Avoids.ne_unreferenced (ha : Avoids c h h') : Records (· ≠ .unreferenced c) h h' := by
  obtain ⟨es, htrace, hes⟩ := ha
  refine ⟨es, htrace, ?_⟩
  rintro e he rfl
  simpa [Event.isUseOf] using hes _ he

theorem Parted.bypass (hh : Parted h p c) (hlt : p < h'.pendings.length) (hb : Bypasses p h h') :
    Parted h' p c := by
  have hcall := hb.call
  simp only [hh.pending] at hcall
  exact ⟨hlt, hb.pending.trans hh.pending, by rw [hcall, hh.kind], by rw [hcall, hh.attached]⟩

end Host

/-- A call that has been given up is not given up again. -/
theorem Host.Parted.act (hh : Parted h p c) (ho : h.Orderly) (ha : Act h h') :
    Parted h' p c ∧ Records (· ≠ .unreferenced c) h h' := by
  have hgrows := ha.grows ho
  have hlt := Nat.lt_of_lt_of_le hh.exists_pending hgrows.pendings
  have hupheld : Upholds NeverGivesUp h h' →
      Parted h' p c ∧ Records (· ≠ .unreferenced c) h h' := by
    intro hu
    have htitle : (h'.pending p).title = (c, false) := by rw [hu.pending, hh.pending]; rfl
    have hslot : (h'.pending p).slot = .absent := by
      rcases hgrows.slot p hh.exists_pending with hslot | hslot
      · rw [hslot, hh.pending]
      · exact hslot
    obtain ⟨es, htrace, hes⟩ := hu.trace
    refine ⟨⟨hlt, ?_, by rw [hu.kind, hh.kind], by rw [hu.attached, hh.attached]⟩,
      es, htrace, fun e he => hes e he c⟩
    obtain ⟨hcall, hholding⟩ := Prod.mk.inj htitle
    rw [← hcall, ← hholding, ← hslot]
  have hsame : h' = h → Parted h' p c ∧ Records (· ≠ .unreferenced c) h h' := by
    rintro rfl
    exact ⟨hh, refl_of (Records _) h'⟩
  have howner : (h.pending p).call = c := by rw [hh.pending]
  rcases ha.bypasses_or_concerns ho hh.exists_pending with hb | hconcerns
  · exact ⟨hh.bypass hlt hb, Avoids.ne_unreferenced (howner ▸ hb.avoids)⟩
  · cases hconcerns with
    | cancel => exact hsame (by rw [hh.cancel])
    | close => exact hsame (by rw [hh.close])
    | free => exact hupheld (upholds_freeData neverGivesUp_of_isOn trivial _ h)
    | opening => exact hupheld (upholds_opening neverGivesUp_of_isOn trivial h)

/-- Nothing is done with a call that has been given up and with which nothing is registered. -/
theorem Host.Detached.act (hh : Detached h p c) (ho : h.Orderly) (ha : Act h h') :
    Detached h' p c ∧ Avoids c h h' := by
  have hparted := (hh.toParted.act ho ha).1
  have howner : (h.pending p).call = c := by rw [hh.pending]
  have hsame : h' = h → Detached h' p c ∧ Avoids c h h' := by
    rintro rfl
    exact ⟨hh, refl_of (Avoids c) h'⟩
  rcases ha.bypasses_or_concerns ho hh.exists_pending with hb | hconcerns
  · have hcall := hb.call
    rw [howner] at hcall
    exact ⟨⟨hparted, by rw [hcall, hh.registration]⟩, howner ▸ hb.avoids⟩
  · cases hconcerns with
    | cancel => exact hsame (by rw [hh.toParted.cancel])
    | close => exact hsame (by rw [hh.toParted.close])
    | free =>
        refine hsame (Callbacks.freeData_of_not_frees _ ?_)
        rw [howner, hh.registration]
        rfl
    | opening =>
        rw [howner] at hparted ⊢
        have hu := upholds_opening neverGivesUp_of_isOn (c := c) trivial h
        refine ⟨⟨hparted, (hu.registration c).trans hh.registration⟩, ?_⟩
        rw [run_opening]
        split
        · -- nobody is told of the reply
          rw [hh.registration]
          exact ⟨[.completed c], rfl, by simp [Event.isUseOf]⟩
        · exact refl_of (Avoids c) h

theorem Acts.parted (ha : Acts h h') (ho : h.Orderly) (hh : Parted h p c) :
    Parted h' p c ∧ Records (· ≠ .unreferenced c) h h' := by
  induction ha with
  | refl => exact ⟨hh, refl_of (Records _) h⟩
  | tail hs ha ih =>
      obtain ⟨hparted, hrecords⟩ := ih
      obtain ⟨hparted', hrecords'⟩ := hparted.act (Acts.orderly hs ho) ha
      exact ⟨hparted', trans_of (Records _) hrecords hrecords'⟩

theorem Acts.detached (ha : Acts h h') (ho : h.Orderly) (hh : Detached h p c) :
    Detached h' p c ∧ Avoids c h h' := by
  induction ha with
  | refl => exact ⟨hh, refl_of (Avoids c) h⟩
  | tail hs ha ih =>
      obtain ⟨hdetached, havoids⟩ := ih
      obtain ⟨hdetached', havoids'⟩ := hdetached.act (Acts.orderly hs ho) ha
      exact ⟨hdetached', trans_of (Avoids c) havoids havoids'⟩

/-! ## Nobody waits for a call that has been given up -/

namespace Host

/-- Nobody waits for the call on the way. -/
abbrev Unawaited (c : CallId) : Host → Host → Prop := Records (· ≠ .blocked c)

theorem ne_blocked_of_isOn : ∀ e : Event, e.IsOn (fun _ => True) → e ≠ .blocked c := by
  rintro e he rfl
  exact he

theorem Serene.unawaited_of (hs : Serene h h') (c : CallId) : Unawaited c h h' := by
  obtain ⟨es, htrace, hes⟩ := hs.unawaited
  exact ⟨es, htrace, fun e he => hes e he c⟩

instance (c : CallId) : AdmitsCalls (Unawaited c) where
  serene hserene := hserene.unawaited_of c
  record he := records_record (by rintro rfl; exact he)
  change _ _ _ _ _ := records_of_trace_eq rfl

instance (c : CallId) : AdmitsChanges (Unawaited c) where
  create r h := (upholds_countBy_record ne_blocked_of_isOn (e := .created r) trivial r 1 h).trace
  share r h := (upholds_countBy_record ne_blocked_of_isOn (e := .shared r) trivial r 1 h).trace
  adopt r h := (upholds_adopt ne_blocked_of_isOn r h).trace
  letGoWrapper w h := (upholds_letGoWrapper ne_blocked_of_isOn w h).trace
  name _ _ _ _ := records_of_trace_eq rfl
  forget _ _ := records_of_trace_eq rfl
  close := moves_closePending

instance (c : CallId) : AdmitsSteps (Unawaited c) where
  record := AdmitsCalls.record
  change := AdmitsCalls.change
  nameHandle name d h := by
    have hnamed : Moves (Unawaited c) _ := moves_named name (.handle d) (h.names.get? name)
    have hname : Unawaited c h { h with names := h.names.put name (.handle d) } :=
      records_of_trace_eq rfl
    exact trans_of (Unawaited c) hname (hnamed _)

end Host

/-- If the pending call has given its call up, acts lead from the first state to the second one,
and nobody waits for the call on the way. -/
def Shuns (p : PendingId) (c : CallId) (h h' : Host) : Prop :=
  h.Orderly → h.Parted p c → Acts h h' ∧ Unawaited c h h'

instance (p : PendingId) (c : CallId) : IsPreorder Host (Shuns p c) where
  refl h _ _ := ⟨.refl, refl_of (Unawaited c) h⟩
  trans _ _ _ hab hbc ho hh := by
    obtain ⟨hacts, hunawaited⟩ := hab ho hh
    obtain ⟨hacts', hunawaited'⟩ := hbc (hacts.orderly ho) (hacts.parted ho hh).1
    exact ⟨hacts.trans hacts', trans_of (Unawaited c) hunawaited hunawaited'⟩

theorem Moves.shuns {α : Type} {w : StateM Host α} (hw : Moves Follows w)
    (hu : Moves (Unawaited c) w) : Moves (Shuns p c) w :=
  fun h ho _ => ⟨hw h ho, hu h⟩

instance (p : PendingId) (c : CallId) : AdmitsChanges (Shuns p c) where
  serene hserene _ _ := ⟨.single (.calm hserene.toCalm), hserene.unawaited_of c⟩
  create r := Moves.shuns (AdmitsChanges.create r) (AdmitsChanges.create r)
  share r := Moves.shuns (AdmitsChanges.share r) (AdmitsChanges.share r)
  adopt r := Moves.shuns (AdmitsChanges.adopt r) (AdmitsChanges.adopt r)
  letGoWrapper w := Moves.shuns (AdmitsChanges.letGoWrapper w) (AdmitsChanges.letGoWrapper w)
  name h s _ hc ho _ :=
    ⟨AdmitsChanges.name (R := Follows) h s hc ho, records_of_trace_eq rfl⟩
  forget h s ho _ := ⟨AdmitsChanges.forget (R := Follows) h s ho, records_of_trace_eq rfl⟩
  close q := Moves.shuns (AdmitsChanges.close q) (AdmitsChanges.close q)

section

variable {run : Reacting} {d : CallId}

-- what handlers do is known to shun the call
variable (hrun : ∀ w n actions, Moves (Shuns p c) (run w n actions))

include hrun

theorem shuns_closing (o : Option (PendingId × WrapperId × MessageId × Reaction)) :
    Moves (Shuns p c) (closing run o) := by
  cases o with
  | none => exact moves_pure _
  | some o =>
      obtain ⟨q, w, m, reaction⟩ := o
      have hleave : Moves (Shuns p c) leave :=
        Moves.shuns (fun _ => Act.leave.follows) fun h => (upholds_leave ne_blocked_of_isOn h).trace
      have hletGo : Moves (Shuns p c) (letGoWrapper w) := AdmitsChanges.letGoWrapper w
      exact (moves_resume (hrun w) q m reaction).bind fun _ => hleave.bind fun _ => hletGo

theorem shuns_complete (hd : d < h.calls.length) : Shuns p c h ((complete run d).run h).2 := by
  have hopening : Shuns p c h ((opening d).run h).2 := fun _ _ =>
    ⟨.single (.opening hd), (upholds_opening ne_blocked_of_isOn (c := d) trivial h).trace⟩
  rw [complete_eq, StateT.run_bind]
  exact trans_of (Shuns p c) hopening (shuns_closing hrun _ _)

theorem shuns_blockCall (hd : d < h.calls.length) (hne : d ≠ c) :
    Shuns p c h ((blockCall run d).run h).2 := by
  have hblocked : Shuns p c h ((record (.blocked d)).run h).2 := by
    have hcalm : Moves Calm (record (.blocked d)) := calm_record trivial
    exact fun _ _ => ⟨.single (.calm (hcalm h)), records_record (by simpa using hne) h⟩
  exact trans_of (Shuns p c) hblocked (shuns_complete hrun hd)

/-- Waiting for another pending call is not waiting for the call. -/
theorem shuns_block (q : PendingId) : Moves (Shuns p c) (Pending.block run q).run := by
  intro h
  refine Session.bind_of_eq (R := Shuns p c) (reads_openCall q) h fun d hd => ?_
  obtain ⟨hholding, rfl⟩ := eq_of_openCall hd
  intro ho hh
  have hq : q < h.pendings.length := Nat.lt_of_not_le fun hge => by
    rw [pending_of_length_le hge] at hholding
    cases hholding
  have hne : (h.pending q).call ≠ c := by
    intro hcall
    obtain rfl : q = p := ho.distinct q hq p hh.exists_pending (by rw [hcall, hh.pending])
    rw [hh.pending] at hholding
    cases hholding
  have hwait : ∀ h' ps, Shuns p c h' { h' with waiting := ps } :=
    fun h' ps _ _ => ⟨.single (.wait ps), records_of_trace_eq rfl⟩
  have hblock := trans_of (Shuns p c) (hwait h (q :: h.waiting))
    (shuns_blockCall (h := { h with waiting := q :: h.waiting }) hrun (ho.owned q hq) hne)
  have hlast : Moves (Shuns p c) (do
      modify fun h => { h with waiting := h.waiting.tail }
      letGo (.pending q) : StateM Host Unit) := by
    have htail : Moves (Shuns p c) (modify fun h : Host => { h with waiting := h.waiting.tail }) :=
      fun h' => hwait h' _
    exact htail.bind fun _ => moves_letGo (.pending q)
  exact trans_of (Shuns p c) hblock (hlast _) ho hh

/-- Steps by which a reply may come in. -/
theorem shuns_deliveringStep {s : CallStep} (hs : s.MayDeliver) :
    Moves (Shuns p c) (s.perform run).run := by
  intro h
  cases s with
  | replyArrives name =>
      refine Session.bind_of_eq (R := Shuns p c) (Session.reads_lineNamed name) h ?_
      intro d hd ho hh
      exact shuns_complete hrun (ho.lines _ (Session.mem_of_lineNamed hd)) ho hh
  | block name =>
      refine Session.bind_of_eq (R := Shuns p c) (Session.reads_thing name) h ?_
      intro t ht
      cases t with
      | pending q =>
          exact Session.moves_bind (shuns_block hrun q) (fun _ => Session.moves_pure _) h
      | handle d =>
          refine Session.bind_of_eq (R := Shuns p c) (Session.reads_attachedCall d) h ?_
          intro e he ho hh
          obtain ⟨rfl, -⟩ := Session.eq_of_attachedCall he
          -- a handle with a name is not the one of a pending call
          have hloose := ho.handles _ (Session.mem_of_thing ht) e rfl
          have hne : e ≠ c := by
            rintro rfl
            exact hloose.2 p hh.exists_pending (by rw [hh.pending])
          exact shuns_blockCall hrun hloose.1 hne ho hh
      | wrapper w => exact Session.moves_throw (R := Shuns p c) _ h
      | reader i => exact Session.moves_throw (R := Shuns p c) _ h
      | writer i => exact Session.moves_throw (R := Shuns p c) _ h
  | _ => exact hs.elim

theorem shuns_step (hfollows : ∀ w n actions, Moves Follows (run w n actions)) (s : Step) :
    Moves (Shuns p c) (s.perform run).run := by
  by_cases hs : s.MayDeliver
  · cases s with
    | call s => exact shuns_deliveringStep hrun hs
    | _ => exact hs.elim
  · exact Moves.shuns (follows_step hfollows s) (moves_otherStep hs)

end

/-- The induction is on how deep handlers may still nest. -/
theorem shuns_reactWithin (depth : Nat) (w : WrapperId) (n : Nat) (actions : List Action) :
    Moves (Shuns p c) (reactWithin depth w n actions) := by
  induction depth generalizing w n actions with
  | zero => exact moves_pure _
  | succ depth ih =>
      exact moves_runActions (shuns_step ih (follows_reactWithin depth))
        (fun name => moves_assign name (by simp)) n actions

/-- A step after the call has been given up does nothing with the call, if nothing is registered
with it. -/
theorem Host.Detached.step (hh : Detached h p c) (ho : h.Orderly) (n : Nat) (s : Step) :
    Records (fun e => e.isUseOf c = false ∧ e ≠ .blocked c) h
      ((s.perform (reactWithin n)).run.run h).2 := by
  obtain ⟨hacts, es, htrace, hes⟩ :=
    shuns_step (shuns_reactWithin n) (follows_reactWithin n) s h ho hh.toParted
  obtain ⟨fs, htrace', hfs⟩ := (hacts.detached ho hh).2
  obtain rfl : es = fs := List.append_cancel_left (htrace.symm.trans htrace')
  exact ⟨es, htrace, fun e he => ⟨hfs e he, hes e he⟩⟩

end

end DBusHost
