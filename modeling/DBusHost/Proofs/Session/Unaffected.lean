import DBusHost.Proofs.Session.Mishaps
import DBusHost.Proofs.Session.Moves
import Mathlib.Algebra.Group.Int.Defs
import Mathlib.Algebra.Group.Prod
import Mathlib.Order.Lattice

/-!
# Computations in two runs at once

Two hosts are alike if they differ by a mishap only: in the slots of their pending calls, and in
what has happened so far.  `Twins` relates two computations that lead from alike hosts to alike
hosts, with results that are related, and with events that are the same but for how handlers end.

Nearly everything that a session does neither looks at handlers nor at what has happened so far.
Such a computation is a twin of its own: the mishap leaves it `Unaffected`.

A run is meant to end before handlers nest deeper than it can follow them, and a mishap is meant to
be told from its absence once.  So the twins bound how many handlers there are in slots, and how
much more there is with the mishap than without, before and after.
-/

namespace DBusHost

/-! ## Events -/

namespace Event

/-- The events at the end of a handler. -/
def ending (p : PendingId) (raised : Option String) : List Event :=
  .finished p raised ::
    if raised.isSome then [.logged .error Host.handlerFailure raised] else []

/-- The event is not the start and not the end of a handler. -/
def IsOutside : Event → Prop
  | .started .. | .finished .. => False
  | _ => True

end Event

/-- The events of a run, and those of the run that has the mishap.  Both have the same handlers
start in the same places; what happens until such a handler ends is related again, and how it ends
is related as the mishap says. -/
inductive Mishap.Echoes (m : Mishap) : List Event → List Event → Prop
  | nil : Mishap.Echoes m [] []
  | outside {e : Event} {es es' : List Event} (he : e.IsOutside) (h : Mishap.Echoes m es es') :
      Mishap.Echoes m (e :: es) (e :: es')
  | handled {p : PendingId} {id : String} {w : WrapperId} {raised raised' : Option String}
      {es es' fs fs' : List Event} (h : Mishap.Echoes m es es') (hend : m.Ends id raised raised')
      (hs : Mishap.Echoes m fs fs') :
      Mishap.Echoes m (.started p id w :: (es ++ (Event.ending p raised ++ fs)))
        (.started p id w :: (es' ++ (Event.ending p raised' ++ fs')))

/-! ## Hosts -/

/-- The second pending call is the first one with the mishap. -/
structure Pending.Alike (m : Mishap) (p p' : Pending) : Prop where
  call : p'.call = p.call
  holding : p'.holding = p.holding
  slot : Reaction.Alike m p.slot p'.slot

namespace Host

/-- The second host is the first one with the mishap: at most the reactions in slots and what has
happened so far differ. -/
inductive Alike (m : Mishap) (h : Host) : Host → Prop
  | intro {pendings : List Pending} (hpendings : List.Forall₂ (Pending.Alike m) h.pendings pendings)
      (trace : List Event) : Alike m h { h with pendings, trace }

theorem alike_of_eq {m : Mishap} {h h' : Host} {ps : List Pending} {es : List Event}
    (hpendings : List.Forall₂ (Pending.Alike m) h.pendings ps)
    (heq : h' = { h with pendings := ps, trace := es }) : Alike m h h' :=
  heq ▸ .intro hpendings es

/-- What there is in slots, all in all. -/
def total (f : Reaction → Nat) (h : Host) : Nat := (h.pendings.map fun p => f p.slot).sum

/-- The number of handlers in slots, those of nested steps included. -/
def stock (h : Host) : Nat := h.total Reaction.handlers

/-- The number of actions in slots and of events so far. -/
def extent (h : Host) : Nat := h.total Reaction.extent + h.trace.length

end Host

/-- How many handlers there may be in slots, and how many actions and events more with a mishap
than without. -/
abbrev Margin := ℕ × ℤ

/-- Two hosts keep to a margin. -/
structure Margin.Admits (x : Margin) (h h' : Host) : Prop where
  stock : h.stock ≤ x.1
  extent : (h'.extent : ℤ) ≤ h.extent + x.2

/-- So many handlers, and so many actions without and with a mishap. -/
def Margin.of (n k k' : ℕ) : Margin := (n, k' - k)

/-- What a reaction, and the same with a mishap, takes of a margin. -/
abbrev Reaction.margin (r r' : Reaction) : Margin := .of r.handlers r.extent r'.extent

abbrev Step.margin (s s' : Step) : Margin := .of s.handlers s.extent s'.extent

abbrev Action.listMargin (actions actions' : List Action) : Margin :=
  .of (listHandlers actions) (listExtent actions) (listExtent actions')

theorem Margin.of_add (n k k' l j j' : ℕ) :
    of (n + l) (k + j) (k' + j') = of n k k' + of l j j' := by
  refine Prod.ext rfl ?_
  simp only [of, Prod.snd_add]
  omega

theorem Margin.le_add_of {k k' : ℕ} (h : k ≤ k') (x : Margin) (n : ℕ) : x ≤ x + of n k k' := by
  refine ⟨Nat.le_add_right _ _, ?_⟩
  simp only [of, Prod.snd_add]
  omega

/-- Slots stay as they are, and events are added. -/
theorem Margin.Admits.append {x y : Margin} {h h' k k' : Host} {es es' : List Event}
    (hx : x.Admits h h') (hpendings : k.pendings = h.pendings) (htrace : k.trace = h.trace ++ es)
    (hpendings' : k'.pendings = h'.pendings) (htrace' : k'.trace = h'.trace ++ es')
    (hstock : x.1 ≤ y.1) (hmore : x.2 + es'.length ≤ y.2 + es.length) : y.Admits k k' where
  stock := by
    rw [Host.stock, Host.total, hpendings]
    exact Nat.le_trans hx.stock hstock
  extent := by
    have hextent := hx.extent
    simp only [Host.extent, Host.total, hpendings, hpendings', htrace, htrace',
      List.length_append] at hextent ⊢
    omega

theorem Margin.Admits.mono {x y : Margin} {h h' : Host} (hx : x.Admits h h') (hxy : x ≤ y) :
    y.Admits h h' where
  stock := Nat.le_trans hx.stock hxy.1
  extent := by
    have hmore := hx.extent
    have hle := hxy.2
    omega

namespace Mishap

open Host

variable {α β : Type} {m : Mishap}

theorem Echoes.append {es es' fs fs' : List Event} (h : m.Echoes es es') (hs : m.Echoes fs fs') :
    m.Echoes (es ++ fs) (es' ++ fs') := by
  induction h with
  | nil => exact hs
  | outside he _ ih => exact .outside he ih
  | handled h hend _ _ ih =>
      simp only [List.cons_append, List.append_assoc]
      exact .handled h hend ih

/-- Events that have nothing to do with handlers are the same in both runs. -/
theorem echoes_self {es : List Event} (h : ∀ e ∈ es, e.IsOutside) : m.Echoes es es := by
  induction es with
  | nil => exact .nil
  | cons e es ih => exact .outside (h e (by simp)) (ih fun f hf => h f (by simp [hf]))

/-! ## Twins -/

/-- From these two hosts the computations lead to alike hosts that keep to a margin, with related
results and events. -/
structure Agree (m : Mishap) (x : Margin) (Q : α → β → Prop) (h h' : Host) (w : StateM Host α)
    (w' : StateM Host β) : Prop where
  result : Q (w.run h).1 (w'.run h').1
  alike : Host.Alike m (w.run h).2 (w'.run h').2
  margin : x.Admits (w.run h).2 (w'.run h').2
  trace : ∃ es es', (w.run h).2.trace = h.trace ++ es ∧ (w'.run h').2.trace = h'.trace ++ es' ∧
    m.Echoes es es'

/-- From any two alike hosts that keep to a margin, the computations lead to alike hosts that keep
to a wider one, with related results and events. -/
structure Twins (m : Mishap) (x y : Margin) (Q : α → β → Prop) (w : StateM Host α)
    (w' : StateM Host β) : Prop where
  le : x ≤ y
  agree : ∀ h h', Host.Alike m h h' → x.Admits h h' → m.Agree y Q h h' w w'

/-- The mishap does not matter to the computation, which keeps to every margin. -/
def Unaffected (m : Mishap) (w : StateM Host α) : Prop := ∀ x, m.Twins x x Eq w w

section

variable {x y z : Margin} {γ δ : Type} {Q : α → β → Prop} {S : γ → δ → Prop}

theorem Agree.bind {h h' : Host} {w : StateM Host α} {w' : StateM Host β} {k : α → StateM Host γ}
    {k' : β → StateM Host δ} (hw : m.Agree x Q h h' w w')
    (hk : ∀ a b, Q a b → m.Twins x y S (k a) (k' b)) : m.Agree y S h h' (w >>= k) (w' >>= k') := by
  obtain ⟨es, es', hes, hes', hechoes⟩ := hw.trace
  obtain ⟨hresult, halike, hmargin, fs, fs', hfs, hfs', hechoes'⟩ :=
    (hk _ _ hw.result).agree _ _ hw.alike hw.margin
  refine ⟨hresult, halike, hmargin, es ++ fs, es' ++ fs', ?_, ?_, hechoes.append hechoes'⟩
  · rw [← List.append_assoc, ← hes]
    exact hfs
  · rw [← List.append_assoc, ← hes']
    exact hfs'

theorem Twins.bind {w : StateM Host α} {w' : StateM Host β} {k : α → StateM Host γ}
    {k' : β → StateM Host δ} (hw : m.Twins x y Q w w')
    (hk : ∀ a b, Q a b → m.Twins y z S (k a) (k' b)) (hyz : y ≤ z) :
    m.Twins x z S (w >>= k) (w' >>= k') :=
  ⟨le_trans hw.le hyz, fun h h' hh hx => (hw.agree h h' hh hx).bind hk⟩

theorem Twins.mono {w : StateM Host α} {w' : StateM Host β} (hw : m.Twins x y Q w w')
    (hyz : y ≤ z) : m.Twins x z Q w w' :=
  ⟨le_trans hw.le hyz, fun h h' hh hx =>
    have hagree := hw.agree h h' hh hx
    ⟨hagree.result, hagree.alike, hagree.margin.mono hyz, hagree.trace⟩⟩

theorem twins_pure {a : α} {b : β} (hab : Q a b) (x : Margin) :
    m.Twins x x Q (pure a) (pure b) :=
  ⟨le_refl x, fun _ _ hh hx => ⟨hab, hh, hx, [], [], (List.append_nil _).symm,
    (List.append_nil _).symm, .nil⟩⟩

theorem Twins.map {w : StateM Host α} {w' : StateM Host β} (hw : m.Twins x y Q w w') {f : α → γ}
    {g : β → δ} (hfg : ∀ a b, Q a b → S (f a) (g b)) : m.Twins x y S (f <$> w) (g <$> w') :=
  hw.bind (fun _ _ hab => twins_pure (hfg _ _ hab) y) (le_refl y)

/-- A computation that looks at the host first, and does the same for alike hosts. -/
theorem twins_get {k : Host → StateM Host α} {k' : Host → StateM Host β}
    (hk : ∀ h h', Host.Alike m h h' → k' h' = k' h) (hle : x ≤ y)
    (h : ∀ h, m.Twins x y Q (k h) (k' h)) : m.Twins x y Q (get >>= k) (get >>= k') := by
  refine ⟨hle, fun s s' hs hx => ?_⟩
  have hagree := (h s).agree s s' hs hx
  rw [← hk s s' hs] at hagree
  exact ⟨hagree.result, hagree.alike, hagree.margin, hagree.trace⟩

end

/-! ## Unaffected computations -/

section

variable {w : StateM Host α} {k : α → StateM Host β}

/-- Looking at a host, one sees the same of an alike one, unless one looks at slots or at what has
happened. -/
theorem seen {γ : Type} {f : Host → γ} {h h' : Host} (hh : Host.Alike m h h')
    (hf : ∀ ps es, f { h with pendings := ps, trace := es } = f h) : f h' = f h := by
  cases hh with
  | intro hpendings trace => exact hf _ _

theorem unaffected_pure (a : α) : m.Unaffected (pure a) := twins_pure rfl

theorem Unaffected.bind (hw : m.Unaffected w) (hk : ∀ a, m.Unaffected (k a)) :
    m.Unaffected (w >>= k) := fun x =>
  (hw x).bind (fun a _ hab => hab ▸ hk a x) (le_refl x)

theorem Unaffected.map (hw : m.Unaffected w) (f : α → β) : m.Unaffected (f <$> w) :=
  hw.bind fun a => unaffected_pure (f a)

theorem Unaffected.discard (hw : m.Unaffected w) : m.Unaffected (Functor.discard w) :=
  hw.map _

/-- A computation that looks at the host, and does the same for alike hosts. -/
theorem unaffected_look {k : Host → StateM Host α} (hk : ∀ h h', Host.Alike m h h' → k h' = k h)
    (h : ∀ h, m.Unaffected (k h)) : m.Unaffected (get >>= k) := fun x =>
  twins_get hk (le_refl x) fun s => h s x

/-- A computation that looks at the host, but neither at slots nor at what has happened. -/
theorem unaffected_get {k : Host → StateM Host α}
    (hk : ∀ h ps es, k { h with pendings := ps, trace := es } = k h)
    (h : ∀ h, m.Unaffected (k h)) : m.Unaffected (get >>= k) :=
  unaffected_look (fun _ _ hh => seen hh fun ps es => hk _ ps es) h

/-- A computation that neither looks at slots nor at what has happened, and adds nothing to it. -/
theorem unaffected_of_run (hw : ∀ h ps es, w.run { h with pendings := ps, trace := es } =
    ((w.run h).1, { (w.run h).2 with pendings := ps, trace := es })) : m.Unaffected w := by
  refine fun x => ⟨le_refl x, fun h h' hh hx => ?_⟩
  obtain ⟨hpendings, trace⟩ := hh
  have hself := hw h h.pendings h.trace
  have hsame : (w.run h).2.pendings = h.pendings := congrArg (fun r => r.2.pendings) hself
  have htrace : (w.run h).2.trace = h.trace := congrArg (fun r => r.2.trace) hself
  have hother := fun ps => hw h ps trace
  rw [← hsame] at hpendings
  have htrace' := htrace.trans (List.append_nil _).symm
  refine ⟨by rw [hother], alike_of_eq hpendings (by rw [hother]), ?_, [], [], htrace', ?_, .nil⟩
  · rw [hother]
    exact hx.append hsame htrace' rfl (List.append_nil _).symm (Nat.le_refl _) (le_refl _)
  · rw [hother, List.append_nil]

theorem unaffected_modify {f : Host → Host} (hf : ∀ h ps es,
    f { h with pendings := ps, trace := es } = { f h with pendings := ps, trace := es }) :
    m.Unaffected (modify f) :=
  unaffected_of_run fun h ps es => Prod.ext rfl (hf h ps es)

theorem unaffected_record {e : Event} (he : e.IsOutside) : m.Unaffected (record e) := by
  refine fun x => ⟨le_refl x, fun h h' hh hx => ?_⟩
  obtain ⟨hpendings, trace⟩ := hh
  exact ⟨rfl, alike_of_eq hpendings rfl, hx.append rfl rfl rfl rfl (Nat.le_refl _) (le_refl _),
    [e], [e], rfl, rfl, .outside he .nil⟩

end

end Mishap

/-! ## Parts of a session -/

namespace Session

open Mishap

variable {α β : Type} {m : Mishap} {x y z : Margin}

theorem twins_bind {s s' : Session α} {k k' : α → Session β} (hs : m.Twins x y Eq s.run s'.run)
    (hk : ∀ a, m.Twins y z Eq (k a).run (k' a).run) (hyz : y ≤ z) :
    m.Twins x z Eq (s >>= k).run (s' >>= k').run := by
  rw [ExceptT.run_bind, ExceptT.run_bind]
  refine hs.bind (fun e _ he => ?_) hyz
  obtain rfl := he
  cases e with
  | ok a => exact hk a
  | error f => exact (twins_pure rfl y).mono hyz

section

variable {s : Session α} {k : α → Session β}

theorem unaffected_pure (a : α) : m.Unaffected (pure a : Session α).run :=
  Mishap.unaffected_pure _

theorem unaffected_throw (f : Fault) : m.Unaffected (throw f : Session α).run :=
  Mishap.unaffected_pure _

theorem unaffected_lift {w : StateM Host α} (hw : m.Unaffected w) :
    m.Unaffected (liftM w : Session α).run := hw.map _

theorem unaffected_result (hs : m.Unaffected s.run) : m.Unaffected s.result := hs

theorem unaffected_bind (hs : m.Unaffected s.run) (hk : ∀ a, m.Unaffected (k a).run) :
    m.Unaffected (s >>= k).run := fun x =>
  twins_bind (hs x) (fun a => hk a x) (le_refl x)

theorem unaffected_discard (hs : m.Unaffected s.run) :
    m.Unaffected (Functor.discard s : Session PUnit).run :=
  unaffected_bind hs fun _ => unaffected_pure _

theorem run_get_bind (k : Host → Session α) :
    (get >>= k : Session α).run = (get >>= fun h => (k h).run : StateM Host _) := rfl

/-- A part of a session that looks at the host, and does the same for alike hosts. -/
theorem unaffected_look {k : Host → Session α} (hk : ∀ h h', Host.Alike m h h' → k h' = k h)
    (h : ∀ h, m.Unaffected (k h).run) : m.Unaffected (get >>= k).run := by
  rw [run_get_bind]
  exact Mishap.unaffected_look (fun s s' hs => congrArg ExceptT.run (hk s s' hs)) h

/-- A part of a session that looks at the host, but neither at slots nor at what has happened. -/
theorem unaffected_get {k : Host → Session α}
    (hk : ∀ h ps es, k { h with pendings := ps, trace := es } = k h)
    (h : ∀ h, m.Unaffected (k h).run) : m.Unaffected (get >>= k).run :=
  unaffected_look (fun _ _ hh => seen hh fun ps es => hk _ ps es) h

end

end Session

section

open Host Mishap

variable {m : Mishap}

/-! ## Slots -/

section

variable {h h' : Host}

theorem Host.Alike.pending (hh : Host.Alike m h h') (p : PendingId) :
    Pending.Alike m (h.pending p) (h'.pending p) := by
  obtain ⟨hpendings, -⟩ := hh
  simp only [Host.pending]
  generalize h.pendings = ps at hpendings
  induction hpendings generalizing p with
  | nil => exact ⟨rfl, rfl, .absent⟩
  | cons hp _ ih =>
      cases p with
      | zero => exact hp
      | succ p => exact ih p

theorem forall₂_modify {ps ps' : List Pending} (h : List.Forall₂ (Pending.Alike m) ps ps')
    {f : Pending → Pending} (hf : ∀ x y, Pending.Alike m x y → Pending.Alike m (f x) (f y))
    (p : PendingId) : List.Forall₂ (Pending.Alike m) (ps.modify p f) (ps'.modify p f) := by
  induction h generalizing p with
  | nil => simp
  | cons hp hps ih =>
      cases p with
      | zero => simpa using ⟨hf _ _ hp, hps⟩
      | succ p => simpa using ⟨hp, ih p⟩

/-- What is taken out of a slot is no longer there. -/
theorem total_takeSlot {f : Reaction → Nat} (hf : f .absent = 0) (h : Host) (p : PendingId) :
    ((takeSlot p).run h).2.total f + f (h.pending p).slot = h.total f := by
  change ((h.pendings.modify p fun pending => { pending with slot := .absent }).map
    fun p => f p.slot).sum + _ = _
  simp only [Host.total, Host.pending]
  induction h.pendings generalizing p with
  | nil => simp [default, hf]
  | cons q qs ih =>
      cases p with
      | zero => simp [hf]; omega
      | succ p =>
          have hrest := ih p
          simp at hrest ⊢
          omega

theorem total_modifyPending {f : Reaction → Nat} {g : Pending → Pending}
    (hg : ∀ x, (g x).slot = x.slot) (p : PendingId) (h : Host) :
    ((modifyPending p g).run h).2.total f = h.total f := by
  change ((h.pendings.modify p g).map fun p => f p.slot).sum = _
  simp only [Host.total]
  induction h.pendings generalizing p with
  | nil => simp
  | cons q qs ih =>
      cases p with
      | zero => simp [hg]
      | succ p => simpa using ih p

end

theorem unaffected_modifyPending {f : Pending → Pending}
    (hf : ∀ x y, Pending.Alike m x y → Pending.Alike m (f x) (f y))
    (hslot : ∀ x, (f x).slot = x.slot) (p : PendingId) : m.Unaffected (modifyPending p f) := by
  refine fun x => ⟨le_refl x, fun h h' hh hx => ?_⟩
  have hstock : ((modifyPending p f).run h).2.stock = h.stock := total_modifyPending hslot p h
  have hextent : ∀ k, ((modifyPending p f).run k).2.extent = k.extent := fun k =>
    congrArg (· + k.trace.length) (total_modifyPending hslot p k)
  have hadmits : x.Admits ((modifyPending p f).run h).2 ((modifyPending p f).run h').2 :=
    ⟨hstock ▸ hx.stock, by simpa only [hextent] using hx.extent⟩
  obtain ⟨hpendings, trace⟩ := hh
  exact ⟨rfl, alike_of_eq (forall₂_modify hpendings hf p) rfl, hadmits, [], [],
    (List.append_nil _).symm, (List.append_nil _).symm, .nil⟩

/-- Taking a reaction out of a slot leaves so much of the margin as it does not take. -/
theorem Margin.Admits.taken {x : Margin} {h h' : Host} (hx : x.Admits h h')
    (p : PendingId) : ∃ y, y + Reaction.margin (h.pending p).slot (h'.pending p).slot ≤ x ∧
      y.Admits ((takeSlot p).run h).2 ((takeSlot p).run h').2 := by
  have hstock : ((takeSlot p).run h).2.stock + (h.pending p).slot.handlers = h.stock :=
    total_takeSlot rfl h p
  have hextent : ∀ k : Host, ((takeSlot p).run k).2.extent + (k.pending p).slot.extent =
      k.extent := by
    intro k
    have htotal := total_takeSlot (f := Reaction.extent) rfl k p
    have htrace : ((takeSlot p).run k).2.trace = k.trace := rfl
    simp only [Host.extent, htrace]
    omega
  have h₁ := hextent h
  have h₂ := hextent h'
  obtain ⟨hxstock, hxextent⟩ := hx
  refine ⟨(((takeSlot p).run h).2.stock,
    x.2 - ((h'.pending p).slot.extent - (h.pending p).slot.extent)), ⟨?_, ?_⟩, Nat.le_refl _, ?_⟩
  · simp only [Margin.of, Prod.fst_add]
    omega
  · simp only [Margin.of, Prod.snd_add]
    omega
  · dsimp only
    omega

/-- Computations that go on with what they take out of a slot. -/
theorem twins_takeSlot {α β : Type} {x z : Margin} {Q : α → β → Prop} {k : Reaction → StateM Host α}
    {k' : Reaction → StateM Host β} (hxz : x ≤ z)
    (h : ∀ y r r', Reaction.Alike m r r' → y + r.margin r' ≤ x → m.Twins y z Q (k r) (k' r'))
    (p : PendingId) : m.Twins x z Q (takeSlot p >>= k) (takeSlot p >>= k') := by
  refine ⟨hxz, fun s s' hs hx => ?_⟩
  obtain ⟨y, hy, hmargin⟩ := hx.taken p
  have hslot := (hs.pending p).slot
  have htaken : m.Agree y (fun r r' => Reaction.Alike m r r' ∧ y + r.margin r' ≤ x)
      s s' (takeSlot p) (takeSlot p) := by
    obtain ⟨hpendings, trace⟩ := hs
    refine ⟨⟨hslot, hy⟩, alike_of_eq (forall₂_modify hpendings (fun p q hpq => ?_) p) rfl, hmargin,
      [], [], (List.append_nil _).symm, (List.append_nil _).symm, .nil⟩
    exact ⟨hpq.call, hpq.holding, .absent⟩
  exact htaken.bind fun r r' hr => h y r r' hr.1 hr.2

theorem unaffected_discard_takeSlot (p : PendingId) :
    m.Unaffected (discard (takeSlot p)) := fun x =>
  twins_takeSlot (le_refl x)
    (fun y _ _ hr hy => (twins_pure rfl y).mono
      (le_trans (Margin.le_add_of hr.extent_le y _) hy)) p

end

end DBusHost
