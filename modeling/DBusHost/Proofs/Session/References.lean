import DBusHost.Proofs.Session.Quiet
import Mathlib.Algebra.Ring.Int.Defs

/-!
# References to native objects

The references to a native object are held by the host or by somebody else, and how many there
are of each sort can be read off what has happened.  Those that come into being are somebody
else's; the host has those that it has taken over and not given back.

`Accounted` says that the host holds one reference to an object that has a live wrapper and none
to another one.  Everything that has to do with references keeps this up.
-/

namespace DBusHost

namespace Event

def heldChange (r : Resource) : Event → Int
  | adopted s => if s = r then 1 else 0
  | released s => if s = r then -1 else 0
  | _ => 0

def outsideChange (r : Resource) : Event → Int
  | created s | shared s => if s = r then 1 else 0
  | adopted s => if s = r then -1 else 0
  | _ => 0

/-- The number of references to an object that the host has taken over in some events, less
those that it has given back. -/
def held (r : Resource) (es : List Event) : Int := (es.map (heldChange r)).sum

/-- The number of references to an object that have come into being in some events, less those
that the host has taken over. -/
def outside (r : Resource) (es : List Event) : Int := (es.map (outsideChange r)).sum

variable {r : Resource} {es : List Event}

theorem held_append (r : Resource) (es fs : List Event) :
    held r (es ++ fs) = held r es + held r fs := by
  simp [held]

theorem outside_append (r : Resource) (es fs : List Event) :
    outside r (es ++ fs) = outside r es + outside r fs := by
  simp [outside]

theorem change_of_resource?_eq_none {e : Event} (he : e.resource? = none) (r : Resource) :
    e.heldChange r = 0 ∧ e.outsideChange r = 0 := by
  cases e <;> simp [resource?, heldChange, outsideChange] at he ⊢

theorem held_eq_zero (hes : ∀ e ∈ es, e.resource? = none) : held r es = 0 := by
  induction es with
  | nil => rfl
  | cons e es ih =>
      obtain ⟨he, hes⟩ := List.forall_mem_cons.mp hes
      have hrest : (es.map (heldChange r)).sum = 0 := ih hes
      simp [held, hrest, (change_of_resource?_eq_none he r).1]

theorem outside_eq_zero (hes : ∀ e ∈ es, e.resource? = none) : outside r es = 0 := by
  induction es with
  | nil => rfl
  | cons e es ih =>
      obtain ⟨he, hes⟩ := List.forall_mem_cons.mp hes
      have hrest : (es.map (outsideChange r)).sum = 0 := ih hes
      simp [outside, hrest, (change_of_resource?_eq_none he r).2]

end Event

open Event

namespace Host

/-- The wrapper is a live one of the native object. -/
def IsLive (h : Host) (w : WrapperId) (r : Resource) : Prop :=
  h.wrappers[w]? = some ⟨r, true⟩

/-- Wrappers and references are accounted for. -/
structure Accounted (h : Host) : Prop where
  unique : ∀ r w w', h.IsLive w r → h.IsLive w' r → w = w'
  one : ∀ r w, h.IsLive w r → held r h.trace = 1
  zero : ∀ r, (∀ w, ¬ h.IsLive w r) → held r h.trace = 0
  count : ∀ r, h.count r = outside r h.trace + held r h.trace
  covered : ∀ r before, before <+: h.trace → 0 ≤ held r before

theorem accounted_start (v : Validator) (f : Failures) : (start v f).Accounted where
  unique r w w' hw := by simp [IsLive, start] at hw
  one r w hw := by simp [IsLive, start] at hw
  zero _ _ := rfl
  count _ := rfl
  covered r before hbefore := by
    obtain rfl : before = [] := List.prefix_nil.mp hbefore
    exact Int.le_refl _

section

variable {h h' : Host} {r : Resource} {w : WrapperId} {es : List Event}

theorem count_congr (hreferences : h'.references = h.references) (r : Resource) :
    h'.count r = h.count r := by
  rw [count, hreferences, count]

/-! ## Events that are appended -/

theorem held_nonneg_of_append (hcovered : ∀ before, before <+: h.trace → 0 ≤ held r before)
    (hes : ∀ front, front <+: es → 0 ≤ held r h.trace + held r front) {before : List Event}
    (hbefore : before <+: h.trace ++ es) : 0 ≤ held r before := by
  have hor := List.prefix_or_prefix_of_prefix hbefore (List.prefix_append h.trace es)
  rcases hor with hold | ⟨front, rfl⟩
  · exact hcovered before hold
  · rw [held_append]
    apply hes
    exact (List.prefix_append_right_inj h.trace).mp hbefore

/-- Events that leave the wrappers as they are, and after which the host has as many references
as before. -/
theorem Accounted.of_wrappers_eq (ha : h.Accounted) (hwrappers : h'.wrappers = h.wrappers)
    (htrace : h'.trace = h.trace ++ es)
    (hcount : ∀ r, h'.count r = h.count r + outside r es) (hheld : ∀ r, held r es = 0)
    (hfront : ∀ r front, front <+: es → 0 ≤ held r front) : h'.Accounted := by
  have hlive : ∀ w r, h'.IsLive w r ↔ h.IsLive w r := fun w r => by rw [IsLive, hwrappers, IsLive]
  have hsame : ∀ r, held r h'.trace = held r h.trace := by
    intro r
    rw [htrace, held_append, hheld, Int.add_zero]
  constructor
  case unique =>
    intro r w w' hw hw'
    exact ha.unique r w w' ((hlive w r).mp hw) ((hlive w' r).mp hw')
  case one =>
    intro r w hw
    rw [hsame]
    exact ha.one r w ((hlive w r).mp hw)
  case zero =>
    intro r hno
    rw [hsame]
    apply ha.zero
    exact fun w hw => hno w ((hlive w r).mpr hw)
  case count =>
    intro r
    have hold := ha.count r
    rw [hcount, hsame, htrace, outside_append]
    omega
  case covered =>
    intro r before hbefore
    rw [htrace] at hbefore
    apply held_nonneg_of_append (ha.covered r) _ hbefore
    intro front hprefix
    have hpast := ha.covered r h.trace (List.prefix_refl _)
    have hnew := hfront r front hprefix
    omega

theorem Accounted.of_same (ha : h.Accounted) (hreferences : h'.references = h.references)
    (hwrappers : h'.wrappers = h.wrappers) (htrace : h'.trace = h.trace) : h'.Accounted := by
  refine ha.of_wrappers_eq hwrappers (htrace.trans (List.append_nil _).symm) ?_ ?_ ?_
  · exact fun r => (count_congr hreferences r).trans (Int.add_zero _).symm
  · exact fun _ => rfl
  · intro r front hfront
    obtain rfl := List.prefix_nil.mp hfront
    exact Int.le_refl _

theorem Quiet.accounted (hh : Quiet h h') (ha : h.Accounted) : h'.Accounted := by
  obtain ⟨es, htrace, hnone⟩ := hh.trace
  apply ha.of_wrappers_eq hh.wrappers htrace
  · intro r
    rw [count_congr hh.references, outside_eq_zero hnone, Int.add_zero]
  · exact fun r => held_eq_zero hnone
  · intro r front hfront
    have hzero : held r front = 0 := held_eq_zero fun e he => hnone e (hfront.subset he)
    exact Int.le_of_eq hzero.symm

/-! ## Making references -/

theorem count_countBy (h : Host) (r s : Resource) (n : Int) :
    ((countBy r n).run h).2.count s = h.count s + if r = s then n else 0 := by
  change ((h.references.put r (h.count r + n)).get? s).getD 0 = _
  rw [Table.get?_put]
  by_cases hrs : r = s
  · simp [hrs]
  · simp [hrs, count]

/-- A reference comes into being that is not the host's. -/
theorem Accounted.grant (ha : h.Accounted) {e : Event} (hheld : ∀ s, e.heldChange s = 0)
    (houtside : ∀ s, e.outsideChange s = if r = s then 1 else 0) :
    ((record e).run ((countBy r 1).run h).2).2.Accounted := by
  have htrace : ((record e).run ((countBy r 1).run h).2).2.trace = h.trace ++ [e] := rfl
  refine ha.of_wrappers_eq ?_ htrace ?_ ?_ ?_
  · rfl
  · intro s
    change ((countBy r 1).run h).2.count s = _
    rw [count_countBy]
    simp [outside, houtside]
  · intro s
    simp [held, hheld]
  · intro s front hfront
    rcases List.prefix_cons_iff.mp hfront with rfl | ⟨rest, rfl, hrest⟩
    · exact Int.le_refl _
    · obtain rfl := List.prefix_nil.mp hrest
      simp [held, hheld]

theorem Accounted.create (ha : h.Accounted) (r : Resource) :
    ((Host.create r).run h).2.Accounted :=
  ha.grant (fun _ => rfl) fun _ => rfl

theorem Accounted.share (ha : h.Accounted) (r : Resource) :
    ((Host.share r).run h).2.Accounted :=
  ha.grant (fun _ => rfl) fun _ => rfl

/-! ## Taking over a reference -/

theorem isLive_of_wrapperOf? (hw : h.wrapperOf? r = some w) : h.IsLive w r := by
  obtain ⟨hlt, hx, -⟩ := List.findIdx?_eq_some_iff_getElem.mp hw
  simp only [Bool.and_eq_true, decide_eq_true_eq] at hx
  obtain ⟨hlive, rfl⟩ := hx
  rw [IsLive, List.getElem?_eq_getElem hlt, ← hlive]

theorem not_isLive_of_wrapperOf?_eq_none (hno : h.wrapperOf? r = none) (w : WrapperId) :
    ¬ h.IsLive w r := by
  intro hw
  have hall := List.findIdx?_eq_none_iff.mp hno ⟨r, true⟩ (List.mem_of_getElem? hw)
  simp at hall

/-- Taking over a reference to an object with a live wrapper gives the reference back and
answers with the wrapper; otherwise there is a new wrapper. -/
theorem adopt_cases (r : Resource) (h : Host) :
    (∃ w, h.IsLive w r ∧ (adopt r).run h =
      (w, ((release r).run ((record (.adopted r)).run h).2).2)) ∨
    (∀ w, ¬ h.IsLive w r) ∧ (adopt r).run h = (h.wrappers.length,
      { ((record (.adopted r)).run h).2 with wrappers := h.wrappers ++ [⟨r, true⟩] }) := by
  rw [run_adopt]
  cases hw : h.wrapperOf? r with
  | some w => exact .inl ⟨w, isLive_of_wrapperOf? hw, rfl⟩
  | none => exact .inr ⟨not_isLive_of_wrapperOf?_eq_none hw, rfl⟩

/-- Taking over a reference touches nothing that refers to a wrapper. -/
theorem referrers_adopt (r : Resource) (h : Host) :
    ((adopt r).run h).2.names = h.names ∧ ((adopt r).run h).2.frames = h.frames := by
  rcases adopt_cases r h with ⟨w, -, hrun⟩ | ⟨-, hrun⟩
  · rw [hrun]
    exact ⟨rfl, rfl⟩
  · rw [hrun]
    exact ⟨rfl, rfl⟩

theorem isLive_concat (hwrappers : h'.wrappers = h.wrappers ++ [⟨r, true⟩]) {s : Resource} :
    h'.IsLive w s ↔ h.IsLive w s ∨ w = h.wrappers.length ∧ s = r := by
  rw [IsLive, hwrappers, IsLive]
  rcases Nat.lt_trichotomy w h.wrappers.length with hlt | rfl | hgt
  · rw [List.getElem?_append_left hlt]
    simp [Nat.ne_of_lt hlt]
  · simp [eq_comm]
  · have hlen : (h.wrappers ++ [(⟨r, true⟩ : Wrapper)]).length ≤ w := by
      simpa using Nat.succ_le_of_lt hgt
    rw [List.getElem?_eq_none hlen, List.getElem?_eq_none (Nat.le_of_lt hgt)]
    simp [Nat.ne_of_gt hgt]

/-- An event after which the host has one reference to each object with a live wrapper. -/
theorem Accounted.of_event (ha : h.Accounted) {e : Event} (htrace : h'.trace = h.trace ++ [e])
    (hcount : ∀ s, h'.count s = h.count s + (e.outsideChange s + e.heldChange s))
    (hunique : ∀ s v v', h'.IsLive v s → h'.IsLive v' s → v = v')
    (hone : ∀ s v, h'.IsLive v s → held s h.trace + e.heldChange s = 1)
    (hzero : ∀ s, (∀ v, ¬ h'.IsLive v s) → held s h.trace + e.heldChange s = 0) :
    h'.Accounted := by
  have hheld : ∀ s, held s h'.trace = held s h.trace + e.heldChange s := by
    intro s
    rw [htrace, held_append]
    simp [held]
  constructor
  case unique => exact hunique
  case one =>
    intro s v hv
    rw [hheld]
    exact hone s v hv
  case zero =>
    intro s hno
    rw [hheld]
    exact hzero s hno
  case count =>
    intro s
    have hold := ha.count s
    have houtside : outside s [e] = e.outsideChange s := by simp [outside]
    rw [hcount, hheld, htrace, outside_append, houtside]
    omega
  case covered =>
    intro s before hbefore
    rw [htrace] at hbefore
    rcases List.prefix_concat_iff.mp hbefore with rfl | hbefore
    · rw [← htrace, hheld]
      by_cases hlive : ∃ v, h'.IsLive v s
      · obtain ⟨v, hv⟩ := hlive
        rw [hone s v hv]
        decide
      · exact Int.le_of_eq (hzero s (not_exists.mp hlive)).symm
    · exact ha.covered s before hbefore

theorem Accounted.adopt (ha : h.Accounted) (r : Resource) :
    ((Host.adopt r).run h).2.Accounted := by
  rcases adopt_cases r h with ⟨w, -, hrun⟩ | ⟨hno, hrun⟩
  · have htrace : ((release r).run ((record (.adopted r)).run h).2).2.trace =
        h.trace ++ [.adopted r, .released r] := List.append_assoc h.trace [.adopted r] _
    rw [hrun]
    refine ha.of_wrappers_eq ?_ htrace ?_ ?_ ?_
    · rfl
    · intro s
      change ((countBy r (-1)).run h).2.count s = _
      rw [count_countBy]
      simp [outside, outsideChange]
    · intro s
      by_cases hrs : r = s <;> simp [held, heldChange, hrs]
    · intro s front hfront
      have hfronts : front = [] ∨
          ∃ rest, front = .adopted r :: rest ∧ (rest = [] ∨ rest = [.released r]) := by
        simpa [List.prefix_cons_iff] using hfront
      rcases hfronts with rfl | ⟨rest, rfl, rfl | rfl⟩ <;>
        by_cases hrs : r = s <;> simp [held, heldChange, hrs]
  · rw [hrun]
    have htrace : ((record (.adopted r)).run h).2.trace = h.trace ++ [.adopted r] := rfl
    have hlive : ∀ {h' : Host} {v s}, h'.wrappers = h.wrappers ++ [⟨r, true⟩] → h'.IsLive v s →
        h.IsLive v s ∧ r ≠ s ∨ v = h.wrappers.length ∧ s = r := by
      intro h' v s hwrappers hv
      rcases (isLive_concat hwrappers).mp hv with hv | hv
      · exact .inl ⟨hv, fun hrs => hno v (hrs ▸ hv)⟩
      · exact .inr hv
    refine ha.of_event htrace ?_ ?_ ?_ ?_
    · intro s
      by_cases hrs : r = s <;> simp [outsideChange, heldChange, hrs] <;> rfl
    · intro s v v' hv hv'
      rcases hlive rfl hv with ⟨hv, hrs⟩ | ⟨rfl, rfl⟩ <;>
        rcases hlive rfl hv' with ⟨hv', hrs'⟩ | ⟨rfl, hrs'⟩
      · exact ha.unique s v v' hv hv'
      · exact absurd hrs'.symm hrs
      · exact absurd rfl hrs'
      · rfl
    · intro s v hv
      rcases hlive rfl hv with ⟨hv, hrs⟩ | ⟨rfl, rfl⟩
      · rw [ha.one s v hv]
        simp [heldChange, hrs]
      · rw [ha.zero s hno]
        simp [heldChange]
    · intro s hnot
      have hold : ∀ v, ¬ h.IsLive v s := fun v hv => hnot v ((isLive_concat rfl).mpr (.inl hv))
      have hrs : r ≠ s := fun hrs =>
        hnot h.wrappers.length ((isLive_concat rfl).mpr (.inr ⟨rfl, hrs.symm⟩))
      rw [ha.zero s hold]
      simp [heldChange, hrs]

/-! ## Disposing of a wrapper -/

/-- The state in which a wrapper is no longer live. -/
def bury (h : Host) (w : WrapperId) : Host :=
  { h with wrappers := h.wrappers.modify w fun wrapper => { wrapper with live := false } }

theorem isLive_bury {v : WrapperId} {s : Resource} :
    (h.bury w).IsLive v s ↔ v ≠ w ∧ h.IsLive v s := by
  rw [IsLive, bury, IsLive, List.getElem?_modify]
  by_cases hwv : w = v
  · subst hwv
    cases h.wrappers[w]? <;> simp
  · simp [hwv, Ne.symm hwv]

/-- A live wrapper that nothing refers to dies and gives its reference back.  Nothing happens
to any other wrapper. -/
theorem letGoWrapper_cases (w : WrapperId) (h : Host) :
    (((letGoWrapper w).run h).2 = h ∧ (h.refersTo w = true ∨ ∀ r, ¬ h.IsLive w r)) ∨
    ∃ r, h.IsLive w r ∧ h.refersTo w = false ∧
      ((letGoWrapper w).run h).2 = ((release r).run (h.bury w)).2 := by
  rw [letGoWrapper, StateT.run_bind, StateT.run_get, pure_bind]
  cases hw : h.wrappers[w]? with
  | none => exact .inl ⟨rfl, .inr fun r hr => by simp [IsLive, hw] at hr⟩
  | some x =>
      obtain ⟨r, live⟩ := x
      dsimp only
      split
      · next hgo =>
          simp only [Bool.and_eq_true, Bool.not_eq_true'] at hgo
          obtain ⟨rfl, hunreferred⟩ := hgo
          exact .inr ⟨r, hw, hunreferred, rfl⟩
      · next hstay =>
          refine .inl ⟨rfl, ?_⟩
          by_cases hrefers : h.refersTo w = true
          · exact .inl hrefers
          · refine .inr fun s hs => hstay ?_
            obtain ⟨-, rfl⟩ : r = s ∧ live = true := by simpa [IsLive, hw] using hs
            simpa using hrefers

/-- Disposing of a wrapper touches nothing that refers to one. -/
theorem referrers_letGoWrapper (w : WrapperId) (h : Host) :
    ((letGoWrapper w).run h).2.names = h.names ∧ ((letGoWrapper w).run h).2.frames = h.frames := by
  rcases letGoWrapper_cases w h with ⟨hrun, -⟩ | ⟨r, -, -, hrun⟩
  · exact ⟨congrArg names hrun, congrArg frames hrun⟩
  · rw [hrun]
    exact ⟨rfl, rfl⟩

theorem Accounted.letGoWrapper (ha : h.Accounted) (w : WrapperId) :
    ((Host.letGoWrapper w).run h).2.Accounted := by
  rcases letGoWrapper_cases w h with ⟨hrun, -⟩ | ⟨r, hr, -, hrun⟩
  · rwa [hrun]
  · rw [hrun]
    have hlive : ∀ {v s}, (h.bury w).IsLive v s → h.IsLive v s ∧ r ≠ s := by
      intro v s hv
      obtain ⟨hne, hv⟩ := isLive_bury.mp hv
      exact ⟨hv, fun hrs => hne (ha.unique s v w hv (hrs ▸ hr))⟩
    have htrace : ((release r).run (h.bury w)).2.trace = h.trace ++ [.released r] := rfl
    refine ha.of_event htrace ?_ ?_ ?_ ?_
    · intro s
      change ((countBy r (-1)).run h).2.count s = _
      rw [count_countBy]
      simp [outsideChange, heldChange]
    · intro s v v' hv hv'
      exact ha.unique s v v' (hlive hv).1 (hlive hv').1
    · intro s v hv
      obtain ⟨hv, hrs⟩ := hlive hv
      rw [ha.one s v hv]
      simp [heldChange, hrs]
    · intro s hnot
      by_cases hrs : r = s
      · subst hrs
        rw [ha.one r w hr]
        simp [heldChange]
      · have hold : ∀ v, ¬ h.IsLive v s := by
          intro v hv
          refine hnot v (isLive_bury.mpr ⟨?_, hv⟩)
          rintro rfl
          exact hrs (congrArg Wrapper.resource (Option.some.inj (hr.symm.trans hv)))
        rw [ha.zero s hold]
        simp [heldChange, hrs]

/-! ## Single changes -/

/-- If references are accounted for in the first state, they are in the second one. -/
def Accounts (h h' : Host) : Prop := h.Accounted → h'.Accounted

instance : AdmitsChanges Accounts where
  refl _ := id
  trans _ _ _ hab hbc ha := hbc (hab ha)
  serene hserene ha := hserene.quiet.accounted ha
  create r _ ha := ha.create r
  share r _ ha := ha.share r
  adopt r _ ha := ha.adopt r
  letGoWrapper w _ ha := ha.letGoWrapper w
  name _ _ _ _ ha := ha.of_same rfl rfl rfl
  forget _ _ ha := ha.of_same rfl rfl rfl
  close p h ha := (moves_closePending (R := Quiet) p h).accounted ha

end

end Host

end DBusHost
