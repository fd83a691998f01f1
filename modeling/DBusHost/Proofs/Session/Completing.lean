import DBusHost.Proofs.Session.Calls
import DBusHost.Proofs.Session.References

/-!
# What starting a handler takes

Handlers are started by the completion of calls.  Whatever is done to calls and to everything
else, short of making a call or of letting a reply come in, starts no handler and does not undo
the completion of a call; nor does it put a reaction into a slot.
-/

namespace DBusHost

open Host

/-! ## Handlers that make no calls -/

/-- The step makes no call. -/
def Step.MakesNoCall : Step → Prop
  | expect .. | request .. | call (.newHandle ..) => False
  | _ => True

def Action.MakesNoCall : Action → Prop
  | step s => s.MakesNoCall
  | raise .. | raiseIfError | keep _ => True

def Reaction.MakesNoCall : Reaction → Prop
  | handler _ actions => ∀ a ∈ actions, a.MakesNoCall
  | absent | inert => True

/-- The event starts a handler. -/
def Event.isStart : Event → Bool
  | .started .. => true
  | _ => false

namespace Event

theorem IsCalm.isStart_eq_false {e : Event} (he : e.IsCalm) : e.isStart = false := by
  cases e <;> first | rfl | exact he.elim

theorem IsOfCall.isStart_eq_false {e : Event} (he : e.IsOfCall) : e.isStart = false := by
  cases e <;> first | rfl | exact he.elim

theorem countP_isStart_eq_zero {es : List Event} (hes : ∀ e ∈ es, e.isStart = false) :
    es.countP isStart = 0 :=
  List.countP_eq_zero.mpr fun e he => by simp [hes e he]

end Event

namespace Host

/-- The number of calls that have not completed. -/
def incomplete (h : Host) : Nat := h.calls.countP fun call => !call.completed

/-- All calls are those of the native library, and no handler makes another one. -/
structure IsClosed (h : Host) : Prop where
  native : ∀ c, (h.call c).kind = .native
  slot : ∀ p, (h.pending p).slot.MakesNoCall

/-- On the way from one state to another one at most so many more handlers are started than calls
are completed. -/
structure Spends (n : Nat) (h h' : Host) : Prop where
  kind : ∀ c, (h'.call c).kind = (h.call c).kind
  slot : ∀ p, (h'.pending p).slot = (h.pending p).slot ∨ (h'.pending p).slot = .absent
  fewer : h'.incomplete ≤ h.incomplete
  started : ∃ es, h'.trace = h.trace ++ es ∧
    es.countP Event.isStart + h'.incomplete ≤ h.incomplete + n

section

variable {n m : Nat} {h h' h'' : Host}

theorem Spends.trans (hh : Spends n h h') (hh' : Spends m h' h'') : Spends (n + m) h h'' where
  kind c := (hh'.kind c).trans (hh.kind c)
  slot p := by
    rcases hh'.slot p with hp | hp
    · rw [hp]
      exact hh.slot p
    · exact .inr hp
  fewer := Nat.le_trans hh'.fewer hh.fewer
  started := by
    obtain ⟨es, hes, hle⟩ := hh.started
    obtain ⟨fs, hfs, hle'⟩ := hh'.started
    refine ⟨es ++ fs, by rw [hfs, hes, List.append_assoc], ?_⟩
    rw [List.countP_append]
    omega

theorem Spends.mono (hh : Spends n h h') (hnm : n ≤ m) : Spends m h h' where
  kind := hh.kind
  slot := hh.slot
  fewer := hh.fewer
  started := by
    obtain ⟨es, hes, hle⟩ := hh.started
    exact ⟨es, hes, Nat.le_trans hle (Nat.add_le_add_left hnm _)⟩

instance : IsPreorder Host (Spends 0) where
  refl h :=
    ⟨fun _ => rfl, fun _ => .inl rfl, Nat.le_refl _, [], (List.append_nil _).symm, by simp⟩
  trans _ _ _ hab hbc := hab.trans hbc

theorem IsClosed.spends (hc : h.IsClosed) (hh : Spends n h h') : h'.IsClosed where
  native c := (hh.kind c).trans (hc.native c)
  slot p := by
    rcases hh.slot p with hp | hp <;> rw [hp]
    · exact hc.slot p
    · trivial

/-! ## Single changes -/

/-- A way on which the calls and the pending calls stay as they are. -/
theorem spends_of_same (es : List Event) (hcalls : h'.calls = h.calls)
    (hpendings : h'.pendings = h.pendings) (htrace : h'.trace = h.trace ++ es)
    (hes : ∀ e ∈ es, e.isStart = false) : Spends 0 h h' where
  kind c := by rw [call, hcalls]; rfl
  slot p := by rw [pending, hpendings]; exact .inl rfl
  fewer := by rw [incomplete, hcalls]; rfl
  started := ⟨es, htrace, by
    rw [Event.countP_isStart_eq_zero hes, incomplete, hcalls, incomplete]
    omega⟩

theorem spends_record {e : Event} (he : e.isStart = false) : Moves (Spends 0) (record e) :=
  fun _ => spends_of_same [e] rfl rfl rfl (by simpa using he)

theorem Calm.spends (hh : Calm h h') : Spends 0 h h' := by
  obtain ⟨es, htrace, hes⟩ := hh.trace
  exact spends_of_same es hh.calls hh.pendings htrace fun e he => (hes e he).isStart_eq_false

theorem countP_modify_le {f : Call → Call} (c : CallId)
    (hf : ∀ call, call.completed = true → (f call).completed = true) (calls : List Call) :
    (calls.modify c f).countP (fun call => !call.completed) ≤
      calls.countP fun call => !call.completed := by
  induction calls generalizing c with
  | nil => simp
  | cons call calls ih =>
      cases c with
      | zero =>
          have hcall := hf call
          simp only [List.modify_zero_cons, List.countP_cons]
          cases hdone : call.completed <;> simp_all
          split <;> omega
      | succ c =>
          simp only [List.modify_succ_cons, List.countP_cons]
          have := ih c
          omega

/-- A change to a call that does not undo its completion. -/
theorem spends_modifyCall {f : Call → Call} (c : CallId)
    (hkind : ∀ call, (f call).kind = call.kind)
    (hf : ∀ call, call.completed = true → (f call).completed = true) :
    Moves (Spends 0) (modifyCall c f) := by
  intro h
  have hfewer : ((modifyCall c f).run h).2.incomplete ≤ h.incomplete :=
    countP_modify_le c hf h.calls
  refine ⟨fun d => ?_, fun _ => .inl rfl, hfewer, [], (List.append_nil _).symm, by simpa⟩
  rw [call_modifyCall]
  split
  · exact hkind _
  · rfl

theorem spends_modifyPending {f : Pending → Pending} (p : PendingId)
    (hf : ∀ pending, (f pending).slot = pending.slot ∨ (f pending).slot = .absent) :
    Moves (Spends 0) (modifyPending p f) := by
  intro h
  refine ⟨fun _ => rfl, fun q => ?_, Nat.le_refl _, [], (List.append_nil _).symm, ?_⟩
  case refine_2 => exact Nat.le_of_eq (Nat.zero_add _)
  rw [pending_modifyPending]
  split
  · exact hf _
  · exact .inl rfl

/-! ## Computations that start no handler -/

instance : AdmitsTending (Spends 0) where
  serene hserene := hserene.toCalm.spends
  record he := spends_record he.isStart_eq_false
  modifyCall := spends_modifyCall
  modifyPending := spends_modifyPending

theorem spends_adopt (r : Resource) : Moves (Spends 0) (adopt r) := by
  have hrelease : Moves (Spends 0) (release r) :=
    fun _ => spends_of_same [.released r] rfl rfl rfl (by simp [Event.isStart])
  have hwrap : ∀ ws, Moves (Spends 0) (modify fun h : Host =>
      { h with wrappers := h.wrappers ++ ws }) :=
    fun _ _ => spends_of_same [] rfl rfl (List.append_nil _).symm (by simp)
  refine (spends_record (e := .adopted r) rfl).bind fun _ => Moves.get fun h => ?_
  split
  · exact hrelease.bind fun _ => moves_pure _
  · exact Moves.get fun h' => (hwrap _).bind fun _ => moves_pure _

theorem spends_letGoWrapper (w : WrapperId) : Moves (Spends 0) (letGoWrapper w) := by
  intro h
  rcases letGoWrapper_cases w h with ⟨hrun, -⟩ | ⟨r, -, -, hrun⟩
  · rw [hrun]
    exact refl_of (Spends 0) h
  · rw [hrun]
    exact spends_of_same [.released r] rfl rfl rfl (by simp [Event.isStart])

instance : AdmitsChanges (Spends 0) where
  create r _ := spends_of_same [.created r] rfl rfl rfl (by simp [Event.isStart])
  share r _ := spends_of_same [.shared r] rfl rfl rfl (by simp [Event.isStart])
  adopt := spends_adopt
  letGoWrapper := spends_letGoWrapper
  name _ _ _ _ := spends_of_same [] rfl rfl (List.append_nil _).symm (by simp)
  forget _ _ := spends_of_same [] rfl rfl (List.append_nil _).symm (by simp)
  close := moves_closePending

/-- Steps by which no call is made and no reply comes in. -/
theorem spends_step {run : Reacting} {s : Step} (hmakes : s.MakesNoCall) (hs : ¬ s.MayDeliver) :
    Moves (Spends 0) (s.perform run).run := by
  cases s with
  | message s => exact moves_messageStep s
  | iterator s => exact moves_iteratorStep s
  | call s => exact moves_tendingStep hs fun _ _ hnew => by subst hnew; exact hmakes.elim
  | connection s => exact moves_connectionStep s
  | thing s => exact moves_thingStep s
  | expect => exact hmakes.elim
  | request => exact hmakes.elim

end

end Host

end DBusHost
