import DBusHost.Proofs.Session.References

/-!
# Live wrappers and what refers to them

Between two operations the live wrappers are those that a name or a delivery in progress refers
to.  Within an operation a wrapper may have been made that nothing refers to yet, or may have
lost what referred to it and not be disposed of yet; `SettledBut` excepts such wrappers.
-/

namespace DBusHost

/-- A key that is there once finds its value. -/
theorem Table.get?_of_mem {κ α : Type} [DecidableEq κ] {t : Table κ α}
    (hkeys : (t.map Prod.fst).Nodup) {k : κ} {x : α} (hmem : (k, x) ∈ t) :
    t.get? k = some x := by
  induction t with
  | nil => simp at hmem
  | cons e t ih =>
      obtain ⟨hfresh, hrest⟩ := List.nodup_cons.mp hkeys
      rw [Table.get?_cons]
      rcases List.mem_cons.mp hmem with rfl | hmem
      · simp
      · have hne : e.1 ≠ k := fun hek => hfresh (hek ▸ List.mem_map_of_mem hmem)
        rw [if_neg hne]
        exact ih hrest hmem

namespace Host

/-- The live wrappers are those that something refers to, and possibly those in `P`.  Every name
is there once. -/
structure SettledBut (P : WrapperId → Prop) (h : Host) : Prop where
  keys : (h.names.map Prod.fst).Nodup
  live : ∀ w, h.refersTo w = true → ∃ r, h.IsLive w r
  referred : ∀ w r, h.IsLive w r → h.refersTo w = true ∨ P w

abbrev Settled (h : Host) : Prop := h.SettledBut fun _ => False

theorem settled_start (v : Validator) (f : Failures) : (start v f).Settled where
  keys := List.nodup_nil
  live w hw := by simp [refersTo, start] at hw
  referred w r hw := by simp [IsLive, start] at hw

section

variable {h h' : Host} {P Q : WrapperId → Prop} {w : WrapperId} {t : Thing} {name : String}

theorem refersTo_iff : h.refersTo w = true ↔
    (∃ s, (s, .wrapper w) ∈ h.names) ∨ ∃ f ∈ h.frames, f.wrapper = w := by
  simp [refersTo]

theorem Settled.refersTo (hs : h.Settled) {r : Resource} (hw : h.IsLive w r) :
    h.refersTo w = true :=
  (hs.referred w r hw).resolve_right id

theorem SettledBut.mono (hs : h.SettledBut P) (hPQ : ∀ w, P w → Q w) : h.SettledBut Q where
  keys := hs.keys
  live := hs.live
  referred w r hw := (hs.referred w r hw).imp_right (hPQ w)

theorem SettledBut.of_eq (hs : h.SettledBut P) (hwrappers : h'.wrappers = h.wrappers)
    (hnames : h'.names = h.names) (hframes : h'.frames = h.frames) : h'.SettledBut P := by
  have hlive : ∀ w r, h'.IsLive w r ↔ h.IsLive w r := fun w r => by rw [IsLive, hwrappers, IsLive]
  have hrefers : ∀ w, h'.refersTo w = h.refersTo w := by
    intro w
    rw [refersTo, hnames, hframes, refersTo]
  constructor
  case keys =>
    rw [hnames]
    exact hs.keys
  case live =>
    intro w hw
    obtain ⟨r, hr⟩ := hs.live w (hrefers w ▸ hw)
    exact ⟨r, (hlive w r).mpr hr⟩
  case referred =>
    intro w r hr
    rw [hrefers]
    exact hs.referred w r ((hlive w r).mp hr)

theorem SettledBut.quiet (hs : h.SettledBut P) (hh : Quiet h h') : h'.SettledBut P :=
  hs.of_eq hh.wrappers hh.names hh.frames

/-! ## Disposing of what nothing refers to -/

theorem SettledBut.letGoWrapper (hs : h.SettledBut (· = w)) :
    ((Host.letGoWrapper w).run h).2.Settled := by
  rcases letGoWrapper_cases w h with ⟨hrun, hor⟩ | ⟨r, hr, hunreferred, hrun⟩
  · rw [hrun]
    refine ⟨hs.keys, hs.live, fun v s hv => .inl ?_⟩
    rcases hs.referred v s hv with hrefers | rfl
    · exact hrefers
    · exact hor.resolve_right fun hno => hno s hv
  · rw [hrun]
    refine ⟨hs.keys, fun v hv => ?_, fun v s hv => .inl ?_⟩
    · have hrefers : h.refersTo v = true := hv
      obtain ⟨s, hlive⟩ := hs.live v hrefers
      refine ⟨s, isLive_bury.mpr ⟨?_, hlive⟩⟩
      rintro rfl
      exact Bool.false_ne_true (hunreferred.symm.trans hrefers)
    · obtain ⟨hne, hlive⟩ := isLive_bury.mp hv
      exact (hs.referred v s hlive).resolve_right hne

theorem SettledBut.letGo (hs : h.SettledBut fun w => t = .wrapper w) :
    ((Host.letGo t).run h).2.Settled := by
  have hplain : (∀ w, t ≠ .wrapper w) → h.Settled := hs.mono
  cases t with
  | wrapper w =>
      have hthis : h.SettledBut (· = w) := hs.mono fun v hwv => (Thing.wrapper.inj hwv).symm
      exact hthis.letGoWrapper
  | pending p => exact (hplain (by simp)).quiet (moves_letGoPending p h)
  | handle c => exact hplain (by simp)
  | reader i => exact hplain (by simp)
  | writer i => exact hplain (by simp)

/-! ## Names -/

/-- A thing is given a name.  What the name stood for may have lost the last thing that referred
to it. -/
theorem SettledBut.put (hs : h.SettledBut P) (ht : ∀ w, t = .wrapper w → ∃ r, h.IsLive w r)
    (hP : ∀ w, P w → t = .wrapper w) (name : String) :
    SettledBut (fun w => h.names.get? name = some (.wrapper w))
      { h with names := h.names.put name t } := by
  constructor
  case keys =>
    have hsub : ((h.names.erase name).map Prod.fst).Sublist (h.names.map Prod.fst) :=
      List.filter_sublist.map _
    refine List.nodup_cons.mpr ⟨?_, hs.keys.sublist hsub⟩
    simp [Table.erase]
  case live =>
    intro w hw
    rcases refersTo_iff.mp hw with ⟨s, hmem⟩ | hframe
    · rcases List.mem_cons.mp hmem with hnew | hold
      · exact ht w (Prod.mk.inj hnew).2.symm
      · exact hs.live w (refersTo_iff.mpr (.inl ⟨s, mem_of_mem_erase hold⟩))
    · exact hs.live w (refersTo_iff.mpr (.inr hframe))
  case referred =>
    intro w r hr
    rcases hs.referred w r hr with hrefers | hw
    · rcases refersTo_iff.mp hrefers with ⟨s, hmem⟩ | hframe
      · by_cases hsname : s = name
        · subst hsname
          exact .inr (Table.get?_of_mem hs.keys hmem)
        · have hkept : (s, Thing.wrapper w) ∈ h.names.erase name := by
            simpa [Table.erase, hsname] using hmem
          exact .inl (refersTo_iff.mpr (.inl ⟨s, List.mem_cons_of_mem _ hkept⟩))
      · exact .inl (refersTo_iff.mpr (.inr hframe))
    · obtain rfl := hP w hw
      exact .inl (refersTo_iff.mpr (.inl ⟨name, List.mem_cons_self⟩))

/-- A name is forgotten.  What it stood for may have lost the last thing that referred to it. -/
theorem SettledBut.erase (hs : h.Settled) (hname : h.names.get? name = some t) :
    SettledBut (fun w => t = .wrapper w) { h with names := h.names.erase name } := by
  constructor
  case keys => exact hs.keys.sublist (List.filter_sublist.map _)
  case live =>
    intro w hw
    rcases refersTo_iff.mp hw with ⟨s, hmem⟩ | hframe
    · exact hs.live w (refersTo_iff.mpr (.inl ⟨s, mem_of_mem_erase hmem⟩))
    · exact hs.live w (refersTo_iff.mpr (.inr hframe))
  case referred =>
    intro w r hr
    have hrefers := Settled.refersTo hs hr
    rcases refersTo_iff.mp hrefers with ⟨s, hmem⟩ | hframe
    · by_cases hsname : s = name
      · subst hsname
        have hfound := Table.get?_of_mem hs.keys hmem
        exact .inr (Option.some.inj (hname.symm.trans hfound))
      · have hkept : (s, Thing.wrapper w) ∈ h.names.erase name := by
          simpa [Table.erase, hsname] using hmem
        exact .inl (refersTo_iff.mpr (.inl ⟨s, hkept⟩))
    · exact .inl (refersTo_iff.mpr (.inr hframe))

theorem SettledBut.assign (hs : h.SettledBut P) (ht : ∀ w, t = .wrapper w → ∃ r, h.IsLive w r)
    (hP : ∀ w, P w → t = .wrapper w) (name : String) :
    ((Host.assign name t).run h).2.Settled := by
  have hput := hs.put ht hP name
  rw [run_assign]
  obtain ⟨h₁, hcalm, ⟨hold, hnamed⟩ | ⟨old, hold, hnamed⟩⟩ :=
    named_cases name t (h.names.get? name) { h with names := h.names.put name t }
  · rw [hnamed]
    rw [hold] at hput
    exact (hput.quiet hcalm.quiet).mono (by simp)
  · rw [hnamed]
    rw [hold] at hput
    have hthis : h₁.SettledBut fun w => old = .wrapper w :=
      (hput.quiet hcalm.quiet).mono fun _ => Option.some.inj
    exact hthis.letGo

theorem Settled.drop (hs : h.Settled) (name : String) :
    ((Session.drop name).run.run h).2.Settled := by
  rw [Session.drop, Session.run_bind, Session.run_thing]
  cases hname : h.names.get? name with
  | none => exact hs
  | some t =>
      have herase := SettledBut.erase hs hname
      exact herase.letGo

/-! ## Taking over -/

/-- What is taken over is a live wrapper of the object, which nothing may refer to yet. -/
theorem Settled.adopt (hs : h.Settled) (r : Resource) :
    ((Host.adopt r).run h).2.SettledBut (· = ((Host.adopt r).run h).1) ∧
      ((Host.adopt r).run h).2.IsLive ((Host.adopt r).run h).1 r := by
  have hrefers : ∀ v s, h.IsLive v s → h.refersTo v = true := fun _ _ => Settled.refersTo hs
  rcases adopt_cases r h with ⟨w, hw, hrun⟩ | ⟨-, hrun⟩
  · rw [hrun]
    exact ⟨⟨hs.keys, hs.live, fun v s hv => .inl (hrefers v s hv)⟩, hw⟩
  · rw [hrun]
    refine ⟨⟨hs.keys, fun v hv => ?_, fun v s hv => ?_⟩, (isLive_concat rfl).mpr (.inr ⟨rfl, rfl⟩)⟩
    · obtain ⟨s, hlive⟩ := hs.live v hv
      exact ⟨s, (isLive_concat rfl).mpr (.inl hlive)⟩
    · rcases (isLive_concat rfl).mp hv with hlive | ⟨rfl, -⟩
      · exact .inl (hrefers v s hlive)
      · exact .inr rfl

theorem Settled.adoptAs (hs : h.Settled) (name : String) (r : Resource) :
    ((Host.adoptAs name r).run h).2.Settled := by
  obtain ⟨hbut, hlive⟩ := Settled.adopt hs r
  have hassign := hbut.assign (t := .wrapper ((Host.adopt r).run h).1)
    (fun w hw => ⟨r, by rwa [← Thing.wrapper.inj hw]⟩) (fun w hw => by rw [hw]) name
  exact hassign

theorem Accounted.adopt_of_isLive (ha : h.Accounted) {r : Resource} (hw : h.IsLive w r) :
    (Host.adopt r).run h = (w, ((release r).run ((record (.adopted r)).run h).2).2) := by
  rcases adopt_cases r h with ⟨v, hv, hrun⟩ | ⟨hno, -⟩
  · obtain rfl := ha.unique r w v hw hv
    exact hrun
  · exact absurd hw (hno w)

theorem names_letGo (t : Thing) (h : Host) : ((Host.letGo t).run h).2.names = h.names := by
  cases t with
  | wrapper w => exact (referrers_letGoWrapper w h).1
  | pending p => exact (moves_letGoPending (R := Quiet) p h).names
  | _ => rfl

theorem names_assign (name : String) (t : Thing) (h : Host) :
    ((Host.assign name t).run h).2.names = h.names.put name t := by
  rw [run_assign]
  obtain ⟨h₁, hcalm, ⟨-, hnamed⟩ | ⟨old, -, hnamed⟩⟩ :=
    named_cases name t (h.names.get? name) { h with names := h.names.put name t }
  · rw [hnamed]
    exact hcalm.names
  · rw [hnamed, names_letGo]
    exact hcalm.names

/-- If an object that has a live wrapper is taken over, that wrapper gets the name, and the
answer is the names that it had before. -/
theorem Accounted.adoptAs_of_isLive (ha : h.Accounted) {r : Resource} (hw : h.IsLive w r)
    (name : String) : ((Host.adoptAs name r).run h).1 = h.namesOf (.wrapper w) ∧
      ((Host.adoptAs name r).run h).2.names.get? name = some (.wrapper w) := by
  have hstate : ((Host.adoptAs name r).run h).2 =
      ((Host.assign name (.wrapper ((Host.adopt r).run h).1)).run ((Host.adopt r).run h).2).2 :=
    rfl
  have hanswer : ((Host.adoptAs name r).run h).1 =
      ((Host.adopt r).run h).2.namesOf (.wrapper ((Host.adopt r).run h).1) := rfl
  rw [hstate, hanswer, names_assign, Table.get?_put, ha.adopt_of_isLive hw]
  exact ⟨rfl, if_pos rfl⟩

/-- What is taken over and let go again, without anything having come to refer to it, leaves one
reference less. -/
theorem Settled.count_letGoWrapper (hs : h.Settled) {r : Resource}
    (hreferences : h'.references = ((Host.adopt r).run h).2.references)
    (hwrappers : h'.wrappers = ((Host.adopt r).run h).2.wrappers)
    (hnames : h'.names = h.names) (hframes : h'.frames = h.frames) :
    ((Host.letGoWrapper ((Host.adopt r).run h).1).run h').2.count r = h.count r - 1 := by
  have hrefers : ∀ v, h'.refersTo v = h.refersTo v := by
    intro v
    simp only [Host.refersTo, hnames, hframes]
  have hrelease : ∀ h₀ : Host, ((release r).run h₀).2.count r = h₀.count r - 1 := by
    intro h₀
    exact (count_countBy h₀ r r (-1)).trans (by simp [Int.sub_eq_add_neg])
  rcases adopt_cases r h with ⟨w, hw, hrun⟩ | ⟨hno, hrun⟩
  · rw [hrun] at hreferences hwrappers ⊢
    rcases letGoWrapper_cases w h' with ⟨hstay, -⟩ | ⟨-, -, hunreferred, -⟩
    · rw [hstay, count_congr hreferences]
      exact hrelease _
    · rw [hrefers, Settled.refersTo hs hw] at hunreferred
      cases hunreferred
  · rw [hrun] at hreferences hwrappers ⊢
    have hlive : h'.IsLive h.wrappers.length r := (isLive_concat hwrappers).mpr (.inr ⟨rfl, rfl⟩)
    have hcount : h'.count r = h.count r := count_congr hreferences r
    rcases letGoWrapper_cases h.wrappers.length h' with ⟨-, hor⟩ | ⟨s, hs', -, hgo⟩
    · rcases hor with hreferred | hdead
      · obtain ⟨s, hold⟩ := hs.live _ ((hrefers _).symm.trans hreferred)
        simp [IsLive] at hold
      · exact absurd hlive (hdead r)
    · obtain rfl : s = r := congrArg Wrapper.resource (Option.some.inj (hs'.symm.trans hlive))
      rw [hgo, hrelease, ← hcount]
      rfl

/-! ## Deliveries -/

/-- A delivery begins. -/
theorem SettledBut.push (hs : h.SettledBut (· = w)) {r : Resource} (hw : h.IsLive w r)
    (id : Option String) : Settled { h with frames := ⟨w, id⟩ :: h.frames } := by
  refine ⟨hs.keys, fun v hv => ?_, fun v s hv => .inl ?_⟩
  · rcases refersTo_iff.mp hv with hname | ⟨f, hf, rfl⟩
    · exact hs.live v (refersTo_iff.mpr (.inl hname))
    · rcases List.mem_cons.mp hf with rfl | hf
      · exact ⟨r, hw⟩
      · exact hs.live f.wrapper (refersTo_iff.mpr (.inr ⟨f, hf, rfl⟩))
  · rcases hs.referred v s hv with hrefers | rfl
    · rcases refersTo_iff.mp hrefers with hname | ⟨f, hf, rfl⟩
      · exact refersTo_iff.mpr (.inl hname)
      · exact refersTo_iff.mpr (.inr ⟨f, List.mem_cons_of_mem _ hf, rfl⟩)
    · exact refersTo_iff.mpr (.inr ⟨_, List.mem_cons_self, rfl⟩)

/-- The innermost delivery ends. -/
theorem Settled.pop (hs : h.Settled) {id : Option String} {rest : List Frame}
    (hframes : h.frames = ⟨w, id⟩ :: rest) :
    SettledBut (· = w) { h with frames := h.frames.tail } := by
  refine ⟨hs.keys, fun v hv => ?_, fun v s hv => ?_⟩
  · rcases refersTo_iff.mp hv with hname | ⟨f, hf, rfl⟩
    · exact hs.live v (refersTo_iff.mpr (.inl hname))
    · exact hs.live f.wrapper (refersTo_iff.mpr (.inr ⟨f, List.mem_of_mem_tail hf, rfl⟩))
  · have hrefers := Settled.refersTo hs hv
    rcases refersTo_iff.mp hrefers with hname | ⟨f, hf, rfl⟩
    · exact .inl (refersTo_iff.mpr (.inl hname))
    · rw [hframes] at hf
      rcases List.mem_cons.mp hf with rfl | hf
      · exact .inr rfl
      · refine .inl (refersTo_iff.mpr (.inr ⟨f, ?_, rfl⟩))
        rw [hframes]
        exact hf

end

end Host

end DBusHost
