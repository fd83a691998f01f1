import DBusHost.Proofs.Session.Act

/-!
# What a computation touches

`Touches P C h h'` says that the way from one state to another one touches no pending calls
but those in `P` and no calls but those in `C`, that no slot is filled on the way, no call
is completed and no handler is started, and that an event that takes the reaction out of a
slot is about a pending call in `P`.

What an act does but for completing a call and starting a handler touches a single call and
the pending call that it belongs to, or less.
-/

namespace DBusHost

namespace Event

/-- The event takes the reaction out of the slot of a pending call on a call. -/
def Empties (p : PendingId) (c : CallId) : Event → Prop
  | .notified _ (.slot q) | .freed _ (.slot q) => q = p
  | .cancelled d | .unreferenced d => d = c
  | _ => False

/-- The event is about the first so many calls and pending calls. -/
def IsWithin (calls pendings : Nat) : Event → Prop
  | .notified c (.slot p) | .freed c (.slot p) => c < calls ∧ p < pendings
  | .cancelled c | .unreferenced c | .completed c => c < calls
  | _ => True

theorem IsWithin.mono {e : Event} {calls calls' pendings pendings' : Nat}
    (h : e.IsWithin calls pendings) (hc : calls ≤ calls') (hp : pendings ≤ pendings') :
    e.IsWithin calls' pendings' := by
  cases e with
  | notified c d | freed c d =>
      cases d with
      | slot p => exact ⟨Nat.lt_of_lt_of_le h.1 hc, Nat.lt_of_lt_of_le h.2 hp⟩
      | note x => trivial
  | cancelled c | unreferenced c | completed c => exact Nat.lt_of_lt_of_le h hc
  | _ => trivial

/-- The event starts no handler, completes no call, and empties no slots but those of pending
calls in `P`. -/
structure Fits (h : Host) (P : PendingId → Prop) (e : Event) : Prop where
  notStarted : ∀ p id w, e ≠ .started p id w
  notCompleted : ∀ c, e ≠ .completed c
  within : e.IsWithin h.calls.length h.pendings.length
  emptied : ∀ p < h.pendings.length, e.Empties p (h.pending p).call → P p

/-- The event has nothing to do with slots, with handlers or with completion. -/
def IsPlain : Event → Prop
  | .notified .. | .freed .. | .cancelled _ | .unreferenced _ | .completed _
  | .started .. => False
  | _ => True

theorem IsPlain.fits {e : Event} (he : e.IsPlain) (h : Host) (P : PendingId → Prop) :
    e.Fits h P := by
  cases e <;> first | exact he.elim | constructor <;> simp [IsWithin, Empties]

theorem IsCalm.isPlain {e : Event} (he : e.IsCalm) : e.IsPlain := by
  cases e <;> first | exact he.elim | trivial

end Event

namespace Host

/-- The way from one state to another one touches no pending calls but those in `P` and no
calls but those in `C`. -/
structure Touches (P : PendingId → Prop) (C : CallId → Prop) (h h' : Host) : Prop where
  size : h'.pendings.length = h.pendings.length
  owner : ∀ p, (h'.pending p).call = (h.pending p).call
  slot : ∀ p, (h'.pending p).slot = (h.pending p).slot ∨ (h'.pending p).slot = .absent
  pending : ∀ p, ¬ P p → h'.pending p = h.pending p
  calls : h.calls.length ≤ h'.calls.length
  call : ∀ c, ¬ C c → h'.call c = h.call c
  completed : ∀ c, (h'.call c).completed = (h.call c).completed
  kind : ∀ c < h.calls.length, (h'.call c).kind = (h.call c).kind
  registered : ∀ c p, (h'.call c).registration.data = .slot p →
    (h.call c).registration.data = .slot p ∨
      p < h'.pendings.length ∧ (h'.pending p).call = c
  handles : ∀ e ∈ h'.names, e ∈ h.names ∨ ∀ c, e.2 = .handle c → h'.IsLoose c
  lines : ∀ e ∈ h'.lines, e ∈ h.lines ∨ e.2 < h'.calls.length
  wrappers : ∀ (w : WrapperId) (x : Wrapper), h.wrappers[w]? = some x →
    ∃ y : Wrapper, h'.wrappers[w]? = some y ∧ y.resource = x.resource
  trace : ∃ es, h'.trace = h.trace ++ es ∧ ∀ e ∈ es, e.Fits h' P

section

variable {P : PendingId → Prop} {C : CallId → Prop} {h h' h'' : Host}

theorem Touches.isLoose (hh : Touches P C h h') {c : CallId} (hc : h.IsLoose c) :
    h'.IsLoose c := by
  constructor
  · exact Nat.lt_of_lt_of_le hc.1 hh.calls
  · intro p hp
    rw [hh.owner p]
    exact hc.2 p (hh.size ▸ hp)

theorem Touches.fits (hh : Touches P C h h') {e : Event} (he : e.Fits h P) :
    e.Fits h' P := by
  constructor
  case notStarted => exact he.notStarted
  case notCompleted => exact he.notCompleted
  case within => exact he.within.mono hh.calls (Nat.le_of_eq hh.size.symm)
  case emptied =>
    intro p hp hempties
    rw [hh.owner p] at hempties
    exact he.emptied p (hh.size ▸ hp) hempties

theorem touches_self (P : PendingId → Prop) (C : CallId → Prop) (h : Host) :
    Touches P C h h where
  size := rfl
  owner _ := rfl
  slot _ := .inl rfl
  pending _ _ := rfl
  calls := Nat.le_refl _
  call _ _ := rfl
  completed _ := rfl
  kind _ _ := rfl
  registered _ _ := .inl
  handles _ he := .inl he
  lines _ he := .inl he
  wrappers _ x hx := ⟨x, hx, rfl⟩
  trace := ⟨[], by simp⟩

theorem Touches.trans (hh : Touches P C h h') (hh' : Touches P C h' h'') :
    Touches P C h h'' where
  size := hh'.size.trans hh.size
  owner p := (hh'.owner p).trans (hh.owner p)
  slot p := by
    rcases hh'.slot p with hp | hp
    · rw [hp]
      exact hh.slot p
    · exact .inr hp
  pending p hp := (hh'.pending p hp).trans (hh.pending p hp)
  calls := Nat.le_trans hh.calls hh'.calls
  call c hc := (hh'.call c hc).trans (hh.call c hc)
  completed c := (hh'.completed c).trans (hh.completed c)
  kind c hc := (hh'.kind c (Nat.lt_of_lt_of_le hc hh.calls)).trans (hh.kind c hc)
  registered c p hp := by
    rcases hh'.registered c p hp with hp | hp
    · rcases hh.registered c p hp with hp | ⟨hlt, hcall⟩
      · exact .inl hp
      · exact .inr ⟨hh'.size ▸ hlt, (hh'.owner p).trans hcall⟩
    · exact .inr hp
  handles e he := by
    rcases hh'.handles e he with he | he
    · rcases hh.handles e he with he | he
      · exact .inl he
      · exact .inr fun c hc => hh'.isLoose (he c hc)
    · exact .inr he
  lines e he := by
    rcases hh'.lines e he with he | he
    · rcases hh.lines e he with he | he
      · exact .inl he
      · exact .inr (Nat.lt_of_lt_of_le he hh'.calls)
    · exact .inr he
  wrappers w x hx := by
    obtain ⟨y, hy, hyx⟩ := hh.wrappers w x hx
    obtain ⟨z, hz, hzy⟩ := hh'.wrappers w y hy
    exact ⟨z, hz, hzy.trans hyx⟩
  trace := by
    obtain ⟨es, hes, hfits⟩ := hh.trace
    exact Event.appended_trans ⟨es, hes, fun e he => hh'.fits (hfits e he)⟩ hh'.trace

/-- A way on which the calls and the pending calls stay as they are. -/
theorem touches_of_same (hpendings : h'.pendings = h.pendings) (hcalls : h'.calls = h.calls)
    (hnames : ∀ e ∈ h'.names, e ∈ h.names ∨ ∀ c, e.2 = .handle c → h.IsLoose c)
    (hlines : ∀ e ∈ h'.lines, e ∈ h.lines ∨ e.2 < h.calls.length)
    (hwrappers : ∀ (w : WrapperId) (x : Wrapper), h.wrappers[w]? = some x →
      ∃ y : Wrapper, h'.wrappers[w]? = some y ∧ y.resource = x.resource)
    (htrace : ∃ es, h'.trace = h.trace ++ es ∧ ∀ e ∈ es, e.Fits h P) :
    Touches P C h h' := by
  have hpending : ∀ p, h'.pending p = h.pending p := fun p => by rw [pending, hpendings]; rfl
  have hcall : ∀ c, h'.call c = h.call c := fun c => by rw [call, hcalls]; rfl
  have hloose : ∀ c, h.IsLoose c → h'.IsLoose c := by
    intro c hc
    refine ⟨hcalls ▸ hc.1, ?_⟩
    intro p hp
    rw [hpending]
    exact hc.2 p (hpendings ▸ hp)
  have hfits : ∀ e : Event, e.Fits h P → e.Fits h' P := by
    intro e he
    refine ⟨he.notStarted, he.notCompleted, ?_, ?_⟩
    · rw [hcalls, hpendings]
      exact he.within
    · intro p hp hempties
      rw [hpending] at hempties
      exact he.emptied p (hpendings ▸ hp) hempties
  constructor
  case size => rw [hpendings]
  case owner =>
    intro p
    rw [hpending]
  case slot =>
    intro p
    rw [hpending]
    exact .inl rfl
  case pending => exact fun p _ => hpending p
  case calls => exact Nat.le_of_eq (congrArg List.length hcalls.symm)
  case call => exact fun c _ => hcall c
  case completed =>
    intro c
    rw [hcall]
  case kind =>
    intro c _
    rw [hcall]
  case registered =>
    intro c p hp
    rw [hcall] at hp
    exact .inl hp
  case handles =>
    intro e he
    rcases hnames e he with he | he
    · exact .inl he
    · exact .inr fun c hc => hloose c (he c hc)
  case lines =>
    rw [hcalls]
    exact hlines
  case wrappers => exact hwrappers
  case trace =>
    obtain ⟨es, hes, hall⟩ := htrace
    exact ⟨es, hes, fun e he => hfits e (hall e he)⟩

/-- A way on which only the trace and what no pending call looks at changes. -/
theorem touches_of_eq (hpendings : h'.pendings = h.pendings) (hcalls : h'.calls = h.calls)
    (hnames : h'.names = h.names)
    (hlines : ∀ e ∈ h'.lines, e ∈ h.lines ∨ e.2 < h.calls.length)
    (hwrappers : h'.wrappers = h.wrappers)
    (htrace : ∃ es, h'.trace = h.trace ++ es ∧ ∀ e ∈ es, e.Fits h P) :
    Touches P C h h' :=
  touches_of_same hpendings hcalls (fun _ he => .inl (hnames ▸ he)) hlines
    (fun _ x hx => ⟨x, hwrappers ▸ hx, rfl⟩) htrace

/-- A way on which only what no pending call looks at changes. -/
theorem touches_of_trace_eq (hpendings : h'.pendings = h.pendings)
    (hcalls : h'.calls = h.calls) (hnames : h'.names = h.names) (hlines : h'.lines = h.lines)
    (hwrappers : h'.wrappers = h.wrappers) (htrace : h'.trace = h.trace) : Touches P C h h' :=
  touches_of_eq hpendings hcalls hnames (fun _ he => .inl (hlines ▸ he)) hwrappers
    ⟨[], by simpa using htrace, by simp⟩

theorem Calm.touches (hh : Calm h h') : Touches P C h h' := by
  obtain ⟨es, hes, hcalm⟩ := hh.trace
  exact touches_of_eq hh.pendings hh.calls hh.names hh.lines hh.wrappers
    ⟨es, hes, fun e he => (hcalm e he).isPlain.fits h P⟩

theorem touches_plain {e : Event} (he : e.IsPlain) :
    Touches P C h ((record e).run h).2 :=
  touches_of_eq rfl rfl rfl (fun _ => .inl) rfl ⟨[e], rfl, by simpa using he.fits h P⟩

theorem touches_record {e : Event} (he : e.Fits h P) :
    Touches P C h ((record e).run h).2 :=
  touches_of_eq rfl rfl rfl (fun _ => .inl) rfl ⟨[e], rfl, by simpa using he⟩

/-! ## Single changes -/

theorem touches_countBy (r : Resource) (n : Int) : Touches P C h ((countBy r n).run h).2 :=
  touches_of_trace_eq rfl rfl rfl rfl rfl rfl

theorem touches_release (r : Resource) : Touches P C h ((release r).run h).2 :=
  (touches_countBy r (-1)).trans (touches_plain trivial)

theorem touches_lock (h : Host) : Touches P C h (lock.run h).2 := by
  have hdepth : Touches P C h { h with lockDepth := h.lockDepth + 1 } :=
    touches_of_trace_eq rfl rfl rfl rfl rfl rfl
  exact hdepth.trans (touches_plain trivial)

theorem touches_unlock (h : Host) : Touches P C h (unlock.run h).2 := by
  have hdepth : Touches P C h { h with lockDepth := h.lockDepth - 1 } :=
    touches_of_trace_eq rfl rfl rfl rfl rfl rfl
  exact hdepth.trans (touches_plain trivial)

theorem pending_of_length_le {p : PendingId} (hp : h.pendings.length ≤ p) :
    h.pending p = default := by
  simp [pending, List.getElem?_eq_none hp]

theorem pending_modifyPending (h : Host) (p q : PendingId) (f : Pending → Pending) :
    ((modifyPending p f).run h).2.pending q =
      if p = q ∧ q < h.pendings.length then f (h.pending q) else h.pending q := by
  change ((h.pendings.modify p f)[q]?).getD default = _
  by_cases hq : q < h.pendings.length
  · by_cases hpq : p = q <;> simp [pending, hq, hpq]
  · simp [pending, hq]

theorem touches_modifyPending {p : PendingId} {f : Pending → Pending} (hp : P p)
    (hcall : ∀ x, (f x).call = x.call)
    (hslot : ∀ x, (f x).slot = x.slot ∨ (f x).slot = .absent) :
    Touches P C h ((modifyPending p f).run h).2 := by
  have hsame : ∀ q, ((modifyPending p f).run h).2.pending q = h.pending q ∨
      p = q ∧ ((modifyPending p f).run h).2.pending q = f (h.pending q) := by
    intro q
    rw [pending_modifyPending]
    split
    · next hq => exact .inr ⟨hq.1, rfl⟩
    · exact .inl rfl
  constructor
  case size => exact List.length_modify ..
  case owner =>
    intro q
    rcases hsame q with h | ⟨-, h⟩ <;> rw [h]
    exact hcall _
  case slot =>
    intro q
    rcases hsame q with h | ⟨-, h⟩ <;> rw [h]
    · exact .inl rfl
    · exact hslot _
  case pending =>
    intro q hq
    rcases hsame q with h | ⟨rfl, -⟩
    · exact h
    · exact absurd hp hq
  case calls => exact Nat.le_refl _
  case call => exact fun _ _ => rfl
  case completed => exact fun _ => rfl
  case kind => exact fun _ _ => rfl
  case registered => exact fun _ _ => .inl
  case handles => exact fun _ => .inl
  case lines => exact fun _ => .inl
  case wrappers => exact fun _ x hx => ⟨x, hx, rfl⟩
  case trace => exact ⟨[], (List.append_nil _).symm, by simp⟩

theorem touches_takeSlot {p : PendingId} (hp : P p) :
    Touches P C h ((takeSlot p).run h).2 :=
  touches_modifyPending hp (fun _ => rfl) fun _ => .inr rfl

/-- A slot is empty after the reaction has been taken out. -/
theorem slot_takeSlot (h : Host) (p : PendingId) :
    (((takeSlot p).run h).2.pending p).slot = .absent := by
  change (((modifyPending p _).run h).2.pending p).slot = _
  rw [pending_modifyPending]
  split
  · rfl
  · next hp =>
      rw [pending_of_length_le (by simpa using hp)]
      rfl

theorem touches_modifyCall {c : CallId} {f : Call → Call} (hc : C c)
    (hsame : ∀ call, (f call).completed = call.completed ∧ (f call).kind = call.kind)
    (hf : ∀ p, (f (h.call c)).registration.data = .slot p →
      (h.call c).registration.data = .slot p ∨
        p < h.pendings.length ∧ (h.pending p).call = c) :
    Touches P C h ((modifyCall c f).run h).2 := by
  have hor : ∀ d, ((modifyCall c f).run h).2.call d = h.call d ∨
      c = d ∧ ((modifyCall c f).run h).2.call d = f (h.call d) := by
    intro d
    rw [call_modifyCall]
    split
    · next hd => exact .inr ⟨hd.1, rfl⟩
    · exact .inl rfl
  constructor
  case size => rfl
  case owner => exact fun _ => rfl
  case slot => exact fun _ => .inl rfl
  case pending => exact fun _ _ => rfl
  case calls => exact Nat.le_of_eq (List.length_modify ..).symm
  case call =>
    intro d hd
    rcases hor d with h | ⟨rfl, -⟩
    · exact h
    · exact absurd hc hd
  case completed =>
    intro d
    rcases hor d with h | ⟨rfl, h⟩ <;> rw [h]
    exact (hsame _).1
  case kind =>
    intro d _
    rcases hor d with h | ⟨rfl, h⟩ <;> rw [h]
    exact (hsame _).2
  case registered =>
    intro d p
    rcases hor d with h | ⟨rfl, h⟩ <;> rw [h]
    · exact .inl
    · exact hf p
  case handles => exact fun _ => .inl
  case lines => exact fun _ => .inl
  case wrappers => exact fun _ x hx => ⟨x, hx, rfl⟩
  case trace => exact ⟨[], (List.append_nil _).symm, by simp⟩

/-! ## Computations on calls and pending calls -/

/-- The calls in `C` exist, and the pending calls that they belong to or that are registered
with them are in `P`. -/
structure Owns (P : PendingId → Prop) (C : CallId → Prop) (h : Host) : Prop where
  pendings : ∀ p, P p → p < h.pendings.length
  calls : ∀ c, C c → c < h.calls.length
  owner : ∀ p < h.pendings.length, C (h.pending p).call → P p
  registered : ∀ c p, C c → (h.call c).registration.data = .slot p → P p

theorem Touches.owns (hh : Touches P C h h') (ho : Owns P C h) : Owns P C h' where
  pendings p hp := hh.size ▸ ho.pendings p hp
  calls c hc := Nat.lt_of_lt_of_le (ho.calls c hc) hh.calls
  owner p hp hc := ho.owner p (hh.size ▸ hp) (hh.owner p ▸ hc)
  registered c p hc hp := by
    rcases hh.registered c p hp with hp | ⟨hlt, hcall⟩
    · exact ho.registered c p hc hp
    · rw [hh.owner p] at hcall
      exact ho.owner p (hh.size ▸ hlt) (hcall ▸ hc)

theorem Owns.fits_cancelled (ho : Owns P C h) {c : CallId} (hc : C c) :
    (Event.cancelled c).Fits h P where
  notStarted _ _ _ := by simp
  notCompleted _ := by simp
  within := ho.calls c hc
  emptied p hp hcall := ho.owner p hp (hcall ▸ hc)

theorem Owns.fits_unreferenced (ho : Owns P C h) {c : CallId} (hc : C c) :
    (Event.unreferenced c).Fits h P where
  notStarted _ _ _ := by simp
  notCompleted _ := by simp
  within := ho.calls c hc
  emptied p hp hcall := ho.owner p hp (hcall ▸ hc)

theorem fits_freed {c : CallId} {d : UserData} (hc : c < h.calls.length)
    (hd : ∀ p, d = .slot p → P p ∧ p < h.pendings.length) : (Event.freed c d).Fits h P where
  notStarted _ _ _ := by simp
  notCompleted _ := by simp
  within := by
    cases d with
    | slot p => exact ⟨hc, (hd p rfl).2⟩
    | note x => trivial
  emptied q _ hq := by
    cases d with
    | slot p => exact (hd q (by rw [show p = q from hq])).1
    | note x => exact hq.elim

theorem fits_notified {c : CallId} {d : UserData} (hc : c < h.calls.length)
    (hd : ∀ p, d = .slot p → P p ∧ p < h.pendings.length) :
    (Event.notified c d).Fits h P where
  notStarted _ _ _ := by simp
  notCompleted _ := by simp
  within := by
    cases d with
    | slot p => exact ⟨hc, (hd p rfl).2⟩
    | note x => trivial
  emptied q _ hq := by
    cases d with
    | slot p => exact (hd q (by rw [show p = q from hq])).1
    | note x => exact hq.elim

theorem touches_freeData {c : CallId} {r : Registration} (hc : c < h.calls.length)
    (hr : ∀ p, r.data = .slot p → P p ∧ p < h.pendings.length) :
    Touches P C h ((freeData c r).run h).2 := by
  rw [Callbacks.run_freeData]
  split
  · have hrecord : Touches P C h ((record (.freed c r.data)).run h).2 :=
      touches_record (fits_freed hc hr)
    cases hd : r.data with
    | slot p =>
        rw [hd] at hrecord
        exact hrecord.trans (touches_takeSlot (hr p hd).1)
    | note x =>
        rw [hd] at hrecord
        exact hrecord
  · exact touches_self P C h

theorem touches_swap {c : CallId} {r : Registration} (hc : C c)
    (hr : ∀ p, r.data = .slot p → p < h.pendings.length ∧ (h.pending p).call = c) :
    Touches P C h ((swap c r).run h).2 := by
  have hcalm : Touches P C h ((succeeds .setNotify).run h).2 :=
    (calm_succeeds .setNotify h).touches
  have hrecord : Touches P C h ((record (.notifySet c r.notifies)).run
      ((succeeds .setNotify).run h).2).2 := hcalm.trans (touches_plain trivial)
  exact hrecord.trans (touches_modifyCall hc (fun _ => ⟨rfl, rfl⟩) fun p hp => .inr (hr p hp))

theorem touches_exchange {c : CallId} {r : Registration} (hc : C c) (hlt : c < h.calls.length)
    (hold : ∀ p, (h.call c).registration.data = .slot p → P p ∧ p < h.pendings.length)
    (hr : ∀ p, r.data = .slot p → p < h.pendings.length ∧ (h.pending p).call = c) :
    Touches P C h ((exchange c r).run h).2 := by
  rw [Callbacks.run_exchange]
  split
  · have hswap : Touches P C h ((swap c r).run h).2 := touches_swap hc hr
    exact hswap.trans (touches_freeData (Nat.lt_of_lt_of_le hlt hswap.calls) fun p hp =>
      hswap.size ▸ hold p hp)
  · exact (calm_succeeds .setNotify h).touches

theorem touches_setNotify {c : CallId} {r : Registration} (hc : C c) (hlt : c < h.calls.length)
    (hold : ∀ p, (h.call c).registration.data = .slot p → P p ∧ p < h.pendings.length)
    (hr : ∀ p, r.data = .slot p → p < h.pendings.length ∧ (h.pending p).call = c) :
    Touches P C h ((setNotify c r).run h).2 := by
  cases hk : (h.call c).kind with
  | standIn accepts =>
      have hrecord : Touches P C h ((record (.notifySet c r.notifies)).run h).2 :=
        touches_plain trivial
      rw [Callbacks.setNotify_standIn _ r hk]
      cases accepts with
      | false => exact hrecord
      | true =>
          exact hrecord.trans
            (touches_modifyCall hc (fun _ => ⟨rfl, rfl⟩) fun p hp => .inr (hr p hp))
  | native =>
      have hexchange := touches_exchange hc hlt hold hr
      rw [Callbacks.setNotify_native _ r hk, StateT.run_bind]
      rcases hrun : (exchange c r).run h with ⟨_ | _, h₁⟩
      · rw [hrun] at hexchange
        exact hexchange
      · rw [hrun] at hexchange
        exact hexchange.trans (touches_modifyCall hc (fun _ => ⟨rfl, rfl⟩) fun _ hp => .inl hp)

theorem run_cancelCall (c : CallId) (h : Host) :
    (cancelCall c).run h = (match (h.call c).kind with
      | .standIn _ => pure ()
      | .native => modifyCall c fun call => { call with cancelled := true } :
        StateM Host Unit).run ((record (.cancelled c)).run h).2 := rfl

theorem cancelCall_standIn {c : CallId} {accepts : Bool}
    (hk : (h.call c).kind = .standIn accepts) :
    (cancelCall c).run h = (record (.cancelled c)).run h := by
  rw [run_cancelCall, hk]
  rfl

theorem cancelCall_native {c : CallId} (hk : (h.call c).kind = .native) :
    (cancelCall c).run h = (do
      record (.cancelled c)
      modifyCall c fun call => { call with cancelled := true }).run h := by
  rw [run_cancelCall, hk]
  rfl

theorem Owns.touches_cancelCall (ho : Owns P C h) {c : CallId} (hc : C c) :
    Touches P C h ((cancelCall c).run h).2 := by
  have hrecord : Touches P C h ((record (.cancelled c)).run h).2 :=
    touches_record (ho.fits_cancelled hc)
  cases hk : (h.call c).kind with
  | standIn accepts =>
      rw [cancelCall_standIn hk]
      exact hrecord
  | native =>
      rw [cancelCall_native hk]
      exact hrecord.trans (touches_modifyCall hc (fun _ => ⟨rfl, rfl⟩) fun _ hp => .inl hp)

theorem touches_stealReply {c : CallId} (hc : C c) :
    Touches P C h ((stealReply c).run h).2 := by
  have hmodify : ∀ h' : Host, Touches P C h'
      ((modifyCall c fun call => { call with reply := none }).run h').2 :=
    fun h' => touches_modifyCall hc (fun _ => ⟨rfl, rfl⟩) fun _ hp => .inl hp
  rw [stealReply, StateT.run_bind, StateT.run_get, pure_bind]
  cases (h.call c).reply with
  | none => exact hmodify h
  | some m =>
      have hrecord : Touches P C h ((record (.stolen c m)).run h).2 := touches_plain trivial
      exact hrecord.trans (hmodify _)

theorem Owns.touches_unreference (ho : Owns P C h) {c : CallId} (hc : C c) :
    Touches P C h ((unreference c).run h).2 := by
  have hrecord : ∀ {h' : Host}, Touches P C h h' →
      Touches P C h ((record (.unreferenced c)).run h').2 :=
    fun hh => hh.trans (touches_record ((hh.owns ho).fits_unreferenced hc))
  cases hk : (h.call c).kind with
  | standIn accepts =>
      rw [Callbacks.unreference_standIn _ hk]
      have hfirst := hrecord (touches_self P C h)
      exact hfirst.trans (touches_freeData (ho.calls c hc) fun p hp =>
        ⟨ho.registered c p hc hp, ho.pendings p (ho.registered c p hc hp)⟩)
  | native =>
      cases hattached : (h.call c).attached with
      | false =>
          rw [Callbacks.unreference_detached _ hk hattached]
          exact touches_self P C h
      | true =>
          rw [Callbacks.unreference_attached _ hk hattached]
          have hexchange : Touches P C h ((exchange c .none).run h).2 :=
            touches_exchange hc (ho.calls c hc)
              (fun p hp => ⟨ho.registered c p hc hp, ho.pendings p (ho.registered c p hc hp)⟩)
              (by simp [Registration.none])
          have hlast : ∀ {h' : Host}, Touches P C h h' → Touches P C h
              ((modifyCall c fun call => { call with attached := false }).run h').2 :=
            fun hh => hh.trans (touches_modifyCall hc (fun _ => ⟨rfl, rfl⟩) fun _ hp => .inl hp)
          split
          · exact hlast (hrecord hexchange)
          · exact hlast (hrecord (touches_self P C h))

theorem Owns.touches_cancel (ho : Owns P C h) {p : PendingId} (hp : P p)
    (hc : (h.pending p).holding = true → C (h.pending p).call) :
    Touches P C h ((Pending.cancel p).run h).2 := by
  rw [Pending.cancel, StateT.run_bind, StateT.run_get, pure_bind]
  cases hholding : (h.pending p).holding with
  | false =>
      simp only [hholding]
      exact touches_takeSlot hp
  | true =>
      simp only [hholding, if_true]
      exact (ho.touches_cancelCall (hc hholding)).trans (touches_takeSlot hp)

theorem slot_cancel (h : Host) (p : PendingId) :
    (((Pending.cancel p).run h).2.pending p).slot = .absent := by
  rw [Pending.cancel, StateT.run_bind, StateT.run_get, pure_bind]
  simp only
  split <;> exact slot_takeSlot _ p

theorem Owns.touches_close (ho : Owns P C h) {p : PendingId} (hp : P p)
    (hc : (h.pending p).holding = true → C (h.pending p).call) :
    Touches P C h ((Pending.close p).run h).2 := by
  have hgive : Touches P C h
      ((modifyPending p fun pending => { pending with holding := false }).run h).2 :=
    touches_modifyPending hp (fun _ => rfl) fun _ => .inl rfl
  rw [Pending.close, StateT.run_bind, StateT.run_get, pure_bind]
  cases hholding : (h.pending p).holding with
  | false =>
      simp only [hholding]
      exact hgive.trans (touches_takeSlot hp)
  | true =>
      simp only [hholding, if_true]
      exact (hgive.trans ((hgive.owns ho).touches_unreference (hc hholding))).trans
        (touches_takeSlot hp)

theorem slot_close (h : Host) (p : PendingId) :
    (((Pending.close p).run h).2.pending p).slot = .absent := by
  rw [Pending.close, StateT.run_bind, StateT.run_get, pure_bind]
  simp only
  split <;> exact slot_takeSlot _ p

end

end Host

end DBusHost
