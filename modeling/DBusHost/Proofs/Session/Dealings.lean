import DBusHost.Proofs.Session.Usage

/-!
# What becomes of a registration

Functions that are registered with a call are called while something else is in progress: the
notify function when the reply comes in, the free function while functions are taken away or
replaced.  Both may use the handle of the call, as long as they register nothing with it.

The registration is then either what it was, or it has been taken away, its data has been freed
once, and the call has been given up.
-/

namespace DBusHost

open Host

namespace Registration

/-- Neither of the functions is there. -/
def IsSilent (r : Registration) : Prop := r.notifies = false ∧ r.frees = false

/-- The data of the registrations that have a free function. -/
def toFree (rs : List Registration) : List UserData := (rs.filter (·.frees)).map (·.data)

@[simp] theorem toFree_append (rs ss : List Registration) :
    toFree (rs ++ ss) = toFree rs ++ toFree ss := by simp [toFree]

theorem IsSilent.toFree_eq_nil {r : Registration} (hr : r.IsSilent) : toFree [r] = [] := by
  simp [toFree, hr.2]

theorem isSilent_none : Registration.none.IsSilent := ⟨rfl, rfl⟩

end Registration

open Registration

/-! ## What the events say -/

namespace Event

/-- The event is about the functions that are registered with the call. -/
def IsOnFunctions (c : CallId) : Event → Prop
  | .notifySet d _ | .notified d _ | .freed d _ => d = c
  | _ => False

/-- Functions are registered with the call. -/
def sets (c : CallId) : Event → Bool
  | .notifySet d _ => d = c
  | _ => false

/-- The data with which the free function of the call is called. -/
def freed? (c : CallId) : Event → Option UserData
  | .freed d x => if d = c then some x else none
  | _ => none

/-- The data with which the notify function of the call is called, each with the number of
registrations so far. -/
def notices (c : CallId) : Nat → List Event → List (Nat × UserData)
  | _, [] => []
  | n, .notifySet d _ :: es => notices c (if d = c then n + 1 else n) es
  | n, .notified d x :: es => if d = c then (n, x) :: notices c n es else notices c n es
  | n, _ :: es => notices c n es

variable {c : CallId}

theorem notices_append (n : Nat) (es fs : List Event) :
    notices c n (es ++ fs) = notices c n es ++ notices c (n + es.countP (sets c)) fs := by
  induction es generalizing n with
  | nil => simp [notices]
  | cons e es ih =>
      cases e with
      | notifySet d b =>
          by_cases hd : d = c <;> simp [notices, sets, ih, hd, Nat.add_assoc, Nat.add_comm]
      | notified d x => by_cases hd : d = c <;> simp [notices, sets, ih, hd]
      | _ => simp [notices, sets, ih]

theorem notices_of_not_isOnFunctions {es : List Event} (hes : ∀ e ∈ es, ¬ e.IsOnFunctions c)
    (n : Nat) : notices c n es = [] := by
  induction es with
  | nil => rfl
  | cons e es ih =>
      have he := hes e (.head es)
      have hrest := ih fun e he => hes e (.tail _ he)
      cases e <;> simp_all [notices, IsOnFunctions]

theorem countP_sets_of_not_isOnFunctions {es : List Event}
    (hes : ∀ e ∈ es, ¬ e.IsOnFunctions c) : es.countP (sets c) = 0 := by
  refine List.countP_eq_zero.mpr fun e he => ?_
  have := hes e he
  cases e <;> simp_all [sets, IsOnFunctions]

theorem filterMap_freed?_of_not_isOnFunctions {es : List Event}
    (hes : ∀ e ∈ es, ¬ e.IsOnFunctions c) : es.filterMap (freed? c) = [] := by
  refine List.filterMap_eq_nil_iff.mpr fun e he => ?_
  have := hes e he
  cases e <;> simp_all [freed?, IsOnFunctions]

end Event

/-! ## While functions are called -/

namespace Host

/-- The state in which the old free function is called, while a registration is replaced. -/
def freeing (h : Host) (c : CallId) (r : Registration) : Host :=
  ((do
    swap c r
    record (.freed c (h.call c).registration.data) : StateM Host Unit).run h).2

/-- The state in which the notify function is called. -/
def ringing (h : Host) (c : CallId) : Host :=
  ((do
    mark c
    record (.notified c (h.call c).registration.data) : StateM Host Unit).run h).2

end Host

/-- What is done with a call, or next to it, short of registering functions.  The functions that
are called meanwhile do such things as well, and no taking away of the functions fails. -/
inductive Dealings (c : CallId) : Host → Host → Prop
  | refl (h : Host) : Dealings c h h
  | trans {h h' h'' : Host} : Dealings c h h' → Dealings c h' h'' → Dealings c h h''
  | apart {h h' : Host} (hlength : h.calls.length ≤ h'.calls.length)
      (hcall : h'.call c = h.call c) (htrace : Records (fun e => ¬ e.IsOnFunctions c) h h') :
      Dealings c h h'
  | cancel (h : Host) : Dealings c h ((cancelCall c).run h).2
  | steal (h : Host) : Dealings c h ((stealReply c).run h).2
  | reply (k : Callbacks) (h : Host)
      (hcalled : (h.call c).registration.notifies = true → Dealings c (h.ringing c)
        ((k.onReply c (h.call c).registration.data).run (h.ringing c)).2) :
      Dealings c h ((k.complete c).run h).2
  | unreference (k : Callbacks) (h : Host)
      (hdetach : (h.call c).attached = true → ¬ (h.call c).kept.IsSilent →
        ((succeeds .setNotify).run h).1 = true)
      (hcalled : (h.call c).registration.frees = true → Dealings c (h.freeing c .none)
        ((k.onFree (h.call c).registration.data).run (h.freeing c .none)).2) :
      Dealings c h ((k.unreference c).run h).2

/-! ## What becomes of a registration -/

section

variable {c : CallId} {h h' h'' : Host} {k : Callbacks} {r : Registration}

/-- The native library holds no functions that the handle does not know of. -/
structure Host.Sound (h : Host) (c : CallId) : Prop where
  exists_call : c < h.calls.length
  native : (h.call c).kind = .native
  kept : (h.call c).kept.IsSilent → (h.call c).registration.IsSilent
  givenUp : (h.call c).attached = false → (h.call c).registration.IsSilent

/-- The registration stays what it is, or it is taken away, its data is freed and the call is
given up.  Until then the notify function is called with the data of the registration. -/
structure Fate (c : CallId) (h h' : Host) : Prop where
  calls : h.calls.length ≤ h'.calls.length
  kind : (h'.call c).kind = (h.call c).kind
  kept : (h'.call c).kept = (h.call c).kept
  events : ∃ es, h'.trace = h.trace ++ es ∧
    (∀ n, ∀ x ∈ Event.notices c n es,
      (h.call c).registration.notifies = true ∧ x = (n, (h.call c).registration.data)) ∧
    ((h'.call c).attached = (h.call c).attached ∧
        (h'.call c).registration = (h.call c).registration ∧
        es.countP (Event.sets c) = 0 ∧ es.filterMap (Event.freed? c) = [] ∨
      (h.call c).attached = true ∧ (h'.call c).attached = false ∧
        (h'.call c).registration.IsSilent ∧
        es.filterMap (Event.freed? c) = toFree [(h.call c).registration])

theorem Fate.sound (hf : Fate c h h') (hs : h.Sound c) : h'.Sound c := by
  obtain ⟨es, -, -, ⟨hattached, hregistration, -⟩ | ⟨-, -, hsilent, -⟩⟩ := hf.events
  · refine ⟨Nat.lt_of_lt_of_le hs.exists_call hf.calls, hf.kind.trans hs.native, ?_, ?_⟩
    · rw [hf.kept, hregistration]
      exact hs.kept
    · rw [hattached, hregistration]
      exact hs.givenUp
  · exact ⟨Nat.lt_of_lt_of_le hs.exists_call hf.calls, hf.kind.trans hs.native, fun _ => hsilent,
      fun _ => hsilent⟩

/-- Nothing becomes of the registration. -/
theorem fate_of_terms (hcalls : h.calls.length ≤ h'.calls.length)
    (hterms : (h'.call c).terms = (h.call c).terms)
    (htrace : Records (fun e => ¬ e.IsOnFunctions c) h h') : Fate c h h' := by
  simp only [Call.terms, Prod.mk.injEq] at hterms
  obtain ⟨hkind, hattached, hregistration, hkept⟩ := hterms
  obtain ⟨es, hes, hon⟩ := htrace
  exact ⟨hcalls, hkind, hkept, es, hes, by simp [Event.notices_of_not_isOnFunctions hon],
    .inl ⟨hattached, hregistration, Event.countP_sets_of_not_isOnFunctions hon,
      Event.filterMap_freed?_of_not_isOnFunctions hon⟩⟩

theorem Fate.trans (hf : Fate c h h') (hf' : Fate c h' h'') : Fate c h h'' := by
  obtain ⟨es, hes, hnotices, hcase⟩ := hf.events
  obtain ⟨fs, hfs, hnotices', hcase'⟩ := hf'.events
  have htrace : h''.trace = h.trace ++ (es ++ fs) := by rw [hfs, hes, List.append_assoc]
  refine ⟨Nat.le_trans hf.calls hf'.calls, hf'.kind.trans hf.kind, hf'.kept.trans hf.kept,
    es ++ fs, htrace, fun n x hx => ?_, ?_⟩
  · rw [Event.notices_append, List.mem_append] at hx
    rcases hx with hx | hx
    · exact hnotices n x hx
    · obtain ⟨hnotifies, rfl⟩ := hnotices' _ x hx
      rcases hcase with ⟨-, hregistration, hsets, -⟩ | ⟨-, -, hsilent, -⟩
      · rw [hregistration] at hnotifies ⊢
        exact ⟨hnotifies, by rw [hsets, Nat.add_zero]⟩
      · exact absurd hnotifies (by simp [hsilent.1])
  · rw [List.countP_append, List.filterMap_append]
    rcases hcase with ⟨ha, hr, hsets, hfreed⟩ | ⟨ha, ha', hsilent, hfreed⟩
    · rcases hcase' with ⟨ha', hr', hsets', hfreed'⟩ | ⟨ha', ha'', hsilent', hfreed'⟩
      · exact .inl ⟨ha'.trans ha, hr'.trans hr, by rw [hsets, hsets'], by rw [hfreed, hfreed']; rfl⟩
      · exact .inr ⟨ha ▸ ha', ha'', hsilent', by rw [hfreed, hfreed', hr]; rfl⟩
    · rcases hcase' with ⟨ha'', hr', -, hfreed'⟩ | ⟨ha'', -⟩
      · exact .inr ⟨ha, ha''.trans ha', hr' ▸ hsilent, by rw [hfreed, hfreed', List.append_nil]⟩
      · exact absurd (ha'.symm.trans ha'') Bool.false_ne_true

theorem fate_record {e : Event} (he : ¬ e.IsOnFunctions c) (h : Host) :
    Fate c h ((record e).run h).2 :=
  fate_of_terms (Nat.le_refl _) rfl (records_record he h)

theorem fate_modifyCall {f : Call → Call} (hf : ∀ x, (f x).terms = x.terms) (h : Host) :
    Fate c h ((modifyCall c f).run h).2 :=
  fate_of_terms (Nat.le_of_eq (List.length_modify ..).symm)
    ((upholds_modifyCall (E := fun _ => True) hf c h).call c) (records_of_trace_eq rfl)

theorem fate_cancelCall (h : Host) (hs : h.Sound c) : Fate c h ((cancelCall c).run h).2 := by
  have hrecord : Fate c h ((record (.cancelled c)).run h).2 := fate_record id h
  rw [cancelCall_native hs.native]
  exact hrecord.trans (fate_modifyCall (fun _ => by rfl) _)

theorem fate_stealReply (h : Host) : Fate c h ((stealReply c).run h).2 := by
  rw [run_stealReply]
  cases (h.call c).reply with
  | none => exact fate_modifyCall (fun _ => by rfl) h
  | some m =>
      have hrecord : Fate c h ((record (.stolen c m)).run h).2 := fate_record id h
      exact hrecord.trans (fate_modifyCall (fun _ => by rfl) _)

theorem fate_mark (h : Host) : Fate c h ((mark c).run h).2 := by
  have hrecord : Fate c h ((record (.completed c)).run h).2 := fate_record id h
  exact hrecord.trans (fate_modifyCall (fun _ => by rfl) _)

/-- The notify function is called with the data of the registration. -/
theorem fate_notified {d : UserData} (hnotifies : (h.call c).registration.notifies = true)
    (hd : d = (h.call c).registration.data) : Fate c h ((record (.notified c d)).run h).2 := by
  subst hd
  refine ⟨Nat.le_refl _, rfl, rfl, [.notified c (h.call c).registration.data], rfl, ?_, ?_⟩
  · intro n x hx
    simp only [Event.notices, if_true, List.mem_singleton] at hx
    exact ⟨hnotifies, hx⟩
  · exact .inl ⟨rfl, rfl, rfl, rfl⟩

theorem registration_mark (h : Host) :
    (((mark c).run h).2.call c).registration = (h.call c).registration := by
  rw [call_mark]
  split <;> rfl

theorem fate_ringing (hnotifies : (h.call c).registration.notifies = true) :
    Fate c h (h.ringing c) :=
  (fate_mark h).trans (fate_notified (by rw [registration_mark, hnotifies])
    (by rw [registration_mark]))

theorem fate_complete (hcalled : (h.call c).registration.notifies = true →
      Fate c (h.ringing c) ((k.onReply c (h.call c).registration.data).run (h.ringing c)).2) :
    Fate c h ((k.complete c).run h).2 := by
  cases hready : (h.call c).isReady with
  | false =>
      rw [k.complete_of_not_isReady hready]
      exact fate_of_terms (Nat.le_refl _) rfl (records_of_trace_eq rfl)
  | true =>
      rw [k.complete_of_isReady hready, k.run_notify]
      split
      · next hnotifies => exact (fate_ringing hnotifies).trans (hcalled hnotifies)
      · exact fate_mark h

/-! ## Taking functions away -/

theorem call_freeing (h : Host) (hc : c < h.calls.length) (r : Registration) :
    (h.freeing c r).call c = { h.call c with registration := r } := call_swap h hc r

theorem trace_freeing (h : Host) (c : CallId) (r : Registration) : (h.freeing c r).trace =
    h.trace ++ [.notifySet c r.notifies, .freed c (h.call c).registration.data] :=
  List.append_assoc h.trace [_] [_]

theorem length_freeing (h : Host) (c : CallId) (r : Registration) :
    (h.freeing c r).calls.length = h.calls.length := List.length_modify ..

/-- The functions have been taken away, what was registered has been freed, and the handle gives
the call up. -/
theorem fate_giveUp (hs : h.Sound c) (hattached : (h.call c).attached = true) {h₁ : Host}
    {es : List Event} (hr : r.IsSilent) (hlength : h₁.calls.length = h.calls.length)
    (hcall : h₁.call c = { h.call c with registration := r })
    (htrace : h₁.trace = h.trace ++ es) (hnotices : ∀ n, Event.notices c n es = [])
    (hfreed : es.filterMap (Event.freed? c) = toFree [(h.call c).registration])
    (hf : Fate c h₁ h') : Fate c h ((giveUp c).run h').2 := by
  obtain ⟨fs, hfs, hnotices', hcase⟩ := hf.events
  rw [hcall] at hnotices' hcase
  have hsilent : (h'.call c).registration.IsSilent ∧ fs.filterMap (Event.freed? c) = [] := by
    rcases hcase with ⟨-, hregistration, -, hfreed'⟩ | ⟨-, -, hsilent, hfreed'⟩
    · exact ⟨hregistration ▸ hr, hfreed'⟩
    · exact ⟨hsilent, hfreed'.trans hr.toFree_eq_nil⟩
  have hunnoticed : ∀ n, Event.notices c n fs = [] := fun n =>
    List.eq_nil_iff_forall_not_mem.mpr fun x hx =>
      Bool.false_ne_true (hr.1.symm.trans (hnotices' n x hx).1)
  have hc : c < h'.calls.length := Nat.lt_of_lt_of_le (hlength ▸ hs.exists_call) hf.calls
  have hlast := call_giveUp h' hc
  constructor
  case calls =>
    have hgiveUp : ((giveUp c).run h').2.calls.length = h'.calls.length := List.length_modify ..
    rw [hgiveUp, ← hlength]
    exact hf.calls
  case kind =>
    rw [hlast]
    exact hf.kind.trans (by rw [hcall])
  case kept =>
    rw [hlast]
    exact hf.kept.trans (by rw [hcall])
  case events =>
    refine ⟨es ++ fs ++ [.unreferenced c], ?_, fun n x hx => ?_, .inr ⟨hattached, ?_, ?_, ?_⟩⟩
    · rw [← List.append_assoc, ← List.append_assoc, ← htrace, ← hfs]
      rfl
    · simp [Event.notices_append, hnotices, hunnoticed, Event.notices] at hx
    · rw [hlast]
    · rw [hlast]
      exact hsilent.1
    · simp [List.filterMap_append, hfreed, hsilent.2, Event.freed?]

theorem fate_unreference (hs : h.Sound c)
    (hdetach : (h.call c).attached = true → ¬ (h.call c).kept.IsSilent →
      ((succeeds .setNotify).run h).1 = true)
    (hcalled : (h.call c).registration.frees = true → Fate c (h.freeing c .none)
      ((k.onFree (h.call c).registration.data).run (h.freeing c .none)).2) :
    Fate c h ((k.unreference c).run h).2 := by
  have hself : ∀ h : Host, Fate c h h :=
    fun h => fate_of_terms (Nat.le_refl _) rfl (records_of_trace_eq rfl)
  cases hattached : (h.call c).attached with
  | false =>
      rw [k.unreference_detached hs.native hattached]
      exact hself h
  | true =>
      rw [k.unreference_attached hs.native hattached]
      split
      · next hkept =>
        -- The functions are taken away first.
        have hok := hdetach hattached fun hsilent => by simp [hsilent.1, hsilent.2] at hkept
        rw [StateT.run_bind]
        change Fate c h ((giveUp c).run ((k.exchange c .none).run h).2).2
        rw [k.run_exchange, if_pos hok, k.run_freeData]
        split
        · next hfrees =>
          exact fate_giveUp hs hattached isSilent_none (length_freeing h c .none)
            (call_freeing h hs.exists_call .none) (trace_freeing h c .none)
            (by simp [Event.notices])
            (by simp [List.filterMap_cons, Event.freed?, toFree, hfrees]) (hcalled hfrees)
        · next hfrees =>
          exact fate_giveUp hs hattached isSilent_none (length_swap h c .none)
            (call_swap h hs.exists_call .none) (trace_swap h c .none)
            (by simp [Event.notices]) (by simp [Event.freed?, toFree, hfrees]) (hself _)
      · next hkept =>
        -- There is nothing to take away.
        have hsilent : (h.call c).registration.IsSilent := hs.kept (by simpa [IsSilent] using hkept)
        exact fate_giveUp hs hattached hsilent rfl rfl (List.append_nil _).symm
          (by simp [Event.notices]) hsilent.toFree_eq_nil.symm (hself h)

theorem sound_ringing (hs : h.Sound c) (hnotifies : (h.call c).registration.notifies = true) :
    (h.ringing c).Sound c := (fate_ringing hnotifies).sound hs

theorem sound_freeing (hs : h.Sound c) (hfrees : (h.call c).registration.frees = true)
    (hr : (h.call c).attached = false → r.IsSilent) : (h.freeing c r).Sound c := by
  have hcall := call_freeing h hs.exists_call r
  refine ⟨(length_freeing h c r).symm ▸ hs.exists_call, ?_, fun hsilent => ?_, ?_⟩
  · rw [hcall]
    exact hs.native
  · rw [hcall] at hsilent
    exact absurd hfrees (by simp [(hs.kept hsilent).2])
  · rw [hcall]
    exact hr

theorem Dealings.fate (hd : Dealings c h h') (hs : h.Sound c) : Fate c h h' := by
  induction hd with
  | refl h => exact fate_of_terms (Nat.le_refl _) rfl (records_of_trace_eq rfl)
  | trans _ _ ih ih' => exact (ih hs).trans (ih' ((ih hs).sound hs))
  | apart hlength hcall htrace => exact fate_of_terms hlength (congrArg Call.terms hcall) htrace
  | cancel h => exact fate_cancelCall h hs
  | steal h => exact fate_stealReply h
  | reply k h _ ih =>
      exact fate_complete fun hnotifies => ih hnotifies (sound_ringing hs hnotifies)
  | unreference k h hdetach _ ih =>
      exact fate_unreference hs hdetach fun hfrees =>
        ih hfrees (sound_freeing hs hfrees fun _ => isSilent_none)

end

end DBusHost
