import DBusHost.Proofs.Container.Keeping
import DBusHost.Proofs.Native.Attempts
import DBusHost.Proofs.Signature.WellFormed

/-!
# Lifetimes of containers

A container is made and then used, again and again.  Its level is the one that was given by name
when it was made.  Its signature is the normalised one that was given then, or when it was last
filled anew with success.

The rules for one operation are put together from what filling can do and from what all other
operations keep; an induction over the operations gives the rules for a lifetime.
-/

namespace DBusHost

/-- The signature among the arguments, as it is given. -/
def Arguments.givenSignature (a : Arguments) : Value := (a.get? 1 signatureParameter).getD .null

/-- The level among the arguments: only a name can give it. -/
def Arguments.givenLevel (a : Arguments) : Value := (a.named? levelParameter).getD (.int 0)

/-! ## Making a container -/

theorem Level.levelValue_of_ofValue {x : Value} {level : Level} (h : Level.ofValue x = .ok level)
    (g : Option Signature) : (⟨g, level⟩ : Tag).levelValue = x := by
  unfold Level.ofValue at h
  split at h
  · obtain rfl := Except.ok.inj h
    rfl
  · split at h
    · simp at h
    · obtain rfl := Except.ok.inj h
      simp only [Tag.levelValue]
      congr
      omega
  · split at h
    · simp at h
    · obtain rfl := Except.ok.inj h
      simp only [Tag.levelValue]
      congr
      omega
  · simp at h

theorem Level.integer?_of_ofValue {x : Value} {level : Level} (h : Level.ofValue x = .ok level) :
    x.integer? = some (level.toNat : Int) := by
  rw [← levelValue_of_ofValue h none]
  cases level with
  | flag b => cases b <;> rfl
  | count | descriptor => rfl

theorem Arguments.normalSignature_of_filling {v : Validator} {a : Arguments} {s : ContainerClass}
    {source : Value} {g : Option Signature} (h : a.filling v s = .ok (source, g)) :
    normalSignature v a.givenSignature = .ok g := by
  unfold filling at h
  split at h
  · obtain ⟨g', hg, hmade⟩ := eq_ok_of_bind h
    obtain rfl := (Prod.mk.inj (Except.ok.inj hmade)).2
    exact hg
  · simp at h

/-- What is made is of the class, and carries the level and the signature that were given. -/
theorem makeContents_spec {v : Validator} {s : ContainerClass} {maker : String} {a : Arguments}
    {d : Contents} {t : Tag} (h : makeContents v s maker a = .ok (d, t)) :
    d.containerClass = s ∧ Level.ofValue a.givenLevel = .ok t.level ∧
      normalSignature v a.givenSignature = .ok t.signature := by
  unfold makeContents at h
  split at h
  · simp at h
  · cases s with
    | array | dictionary =>
        obtain ⟨level, hlevel, h⟩ := eq_ok_of_bind h
        obtain ⟨⟨source, g⟩, hfilling, h⟩ := eq_ok_of_bind h
        obtain ⟨xs, -, h⟩ := eq_ok_of_bind h
        obtain ⟨rfl, rfl⟩ := Prod.mk.inj (Except.ok.inj h)
        exact ⟨rfl, hlevel, Arguments.normalSignature_of_filling hfilling⟩
    | struct =>
        dsimp only at h
        split at h
        case h_2 => simp at h
        case h_1 source hpositional =>
          split at h
          · simp [throw, throwThe, MonadExceptOf.throw, bind, Except.bind] at h
          · obtain ⟨level, hlevel, h⟩ := eq_ok_of_bind h
            obtain ⟨g, hg, h⟩ := eq_ok_of_bind h
            obtain ⟨xs, -, h⟩ := eq_ok_of_bind h
            obtain ⟨rfl, rfl⟩ := Prod.mk.inj (Except.ok.inj h)
            have hgiven : a.givenSignature = (a.named? signatureParameter).getD .null := by
              simp [Arguments.givenSignature, Arguments.get?, hpositional]
            exact ⟨rfl, hlevel, hgiven ▸ hg⟩

namespace Container

variable {v : Validator} {c c' : Container} {o : Operation} {a : Arguments}

theorem make_spec {s : ContainerClass} {derivedName : Option String}
    (h : make v s derivedName a = .ok c) :
    c.contents.containerClass = s ∧ Level.ofValue a.givenLevel = .ok c.tag.level ∧
      normalSignature v a.givenSignature = .ok c.tag.signature := by
  obtain ⟨⟨d, t⟩, hmade, h⟩ := eq_ok_of_bind h
  obtain rfl := Except.ok.inj h
  exact makeContents_spec hmade

theorem getAttribute_level (c : Container) :
    c.getAttribute (.text levelParameter) = .ok c.tag.levelValue := rfl

theorem getAttribute_signature (c : Container) :
    c.getAttribute (.text signatureParameter) = .ok c.tag.signatureValue := rfl

/-! ## Filling a container anew -/

/-- What comes of filling a container anew: nothing can be done to a struct; arguments that do
not suit, or that have no acceptable signature, are refused before anything is done; a source
that breaks off leaves other contents behind; and otherwise the signature is a new one too. -/
inductive Refilled (v : Validator) (c : Container) (a : Arguments) :
    Except Fault Value × Container → Prop
  | fixed (hfixed : c.isFixed = true) : Refilled v c a (.ok .null, c)
  | refused (f : Fault) : Refilled v c a (.error f, c)
  | broken {d : Contents} {g : Option Signature} (f : Fault) (hfixed : c.isFixed = false)
      (hsort : d.containerClass = c.contents.containerClass)
      (hg : normalSignature v a.givenSignature = .ok g) :
      Refilled v c a (.error f, { c with contents := d })
  | filled {d : Contents} {g : Option Signature} (hfixed : c.isFixed = false)
      (hsort : d.containerClass = c.contents.containerClass)
      (hg : normalSignature v a.givenSignature = .ok g) :
      Refilled v c a (.ok .null, { c with contents := d, tag := { c.tag with signature := g } })

theorem refilled_refill (v : Validator) (c : Container) (a : Arguments) :
    Refilled v c a (c.refill v a) := by
  unfold refill
  cases hd : c.contents with
  | struct => exact .fixed (by simp [isFixed, hd])
  | array xs =>
      have hfixed : c.isFixed = false := by simp [isFixed, hd]
      cases hfilling : a.filling v .array with
      | error f => exact .refused f
      | ok p =>
          have hg := Arguments.normalSignature_of_filling hfilling
          cases hitems : itemsOfSource p.1 with
          | ok ys =>
              simp only [hitems]
              exact .filled hfixed (hd ▸ rfl) hg
          | error f =>
              simp only [hitems]
              exact .broken f hfixed (hd ▸ rfl) hg
  | dictionary es =>
      have hfixed : c.isFixed = false := by simp [isFixed, hd]
      cases hfilling : a.filling v .dictionary with
      | error f => exact .refused f
      | ok p =>
          have hg := Arguments.normalSignature_of_filling hfilling
          rcases hinsert : Entries.insertFrom es p.1 with ⟨_ | f, fs⟩
          · simp only [hinsert]
            exact .filled hfixed (hd ▸ rfl) hg
          · simp only [hinsert]
            exact .broken f hfixed (hd ▸ rfl) hg

theorem Refilled.apply (h : o.refilling? = some a) : Refilled v c a (c.apply v o) := by
  obtain hrefill | ⟨f, hfails⟩ := apply_of_refilling? h (c := c) (v := v)
  · rw [hrefill]
    exact refilled_refill v c a
  · rw [hfails]
    exact .refused f

/-! ## The rules of a lifetime -/

/-- What an operation may do to a container, with the answer and the container afterwards. -/
structure Rules (v : Validator) (c : Container) (o : Operation) (answer : Except Fault Value)
    (c' : Container) : Prop where
  sort : c'.contents.containerClass = c.contents.containerClass
  level : c'.tag.level = c.tag.level
  /-- Nothing changes a struct. -/
  fixed : c.isFixed = true → c'.contents = c.contents ∧ c'.tag = c.tag
  /-- The signature stays, unless the container is filled anew with success. -/
  kept : (∀ a x, o.refilling? = some a → answer ≠ .ok x) →
    c'.tag.signature = c.tag.signature
  /-- Filling anew with success makes the normalised signature that is given the new one. -/
  filled : c.isFixed = false → ∀ a x, o.refilling? = some a → answer = .ok x →
    normalSignature v a.givenSignature = .ok c'.tag.signature
  /-- A signature that is rejected leaves the contents as they are. -/
  rejected : ∀ a f, o.refilling? = some a → normalSignature v a.givenSignature = .error f →
    c'.contents = c.contents ∧ (c.isFixed = false → ∃ f', answer = .error f')

theorem Steady.rules {answer : Except Fault Value} (h : Steady c c')
    (hrefill : o.refilling? = none) : Rules v c o answer c' where
  sort := h.sort
  level := by rw [h.tag]
  fixed := fun hfixed => ⟨h.fixed hfixed, h.tag⟩
  kept := fun _ => by rw [h.tag]
  filled := fun _ a _ ha => by simp [hrefill] at ha
  rejected := fun a _ ha => by simp [hrefill] at ha

theorem Refilled.rules {r : Except Fault Value × Container} (h : Refilled v c a r)
    (ha : o.refilling? = some a) : Rules v c o r.1 r.2 := by
  have hsame : ∀ b, o.refilling? = some b → b = a := fun b hb => Option.some.inj (hb.symm.trans ha)
  have hnot : ∀ b, c.isFixed = b → c.isFixed = !b → False := by simp
  cases h with
  | fixed hfixed =>
      exact
        { sort := rfl
          level := rfl
          fixed := fun _ => ⟨rfl, rfl⟩
          kept := fun _ => rfl
          filled := fun hplain => (hnot _ hfixed hplain).elim
          rejected := fun _ _ _ _ => ⟨rfl, fun hplain => (hnot _ hfixed hplain).elim⟩ }
  | refused f =>
      exact
        { sort := rfl
          level := rfl
          fixed := fun _ => ⟨rfl, rfl⟩
          kept := fun _ => rfl
          filled := fun _ _ _ _ hok => by cases hok
          rejected := fun _ _ _ _ => ⟨rfl, fun _ => ⟨f, rfl⟩⟩ }
  | broken f hplain hsort hg =>
      refine
        { sort := hsort
          level := rfl
          fixed := fun hfixed => (hnot _ hplain hfixed).elim
          kept := fun _ => rfl
          filled := fun _ _ _ _ hok => by cases hok
          rejected := fun b _ hb hrejected => ?_ }
      rw [hsame b hb, hg] at hrejected
      cases hrejected
  | filled hplain hsort hg =>
      refine
        { sort := hsort
          level := rfl
          fixed := fun hfixed => (hnot _ hplain hfixed).elim
          kept := fun hfails => absurd rfl (hfails a .null ha)
          filled := fun _ b _ hb _ => hsame b hb ▸ hg
          rejected := fun b _ hb hrejected => ?_ }
      rw [hsame b hb, hg] at hrejected
      cases hrejected

/-- An operation on attributes with public names keeps the rules. -/
theorem rules_apply (v : Validator) (c : Container) (hpublic : o.IsPublic) :
    Rules v c o (c.apply v o).1 (c.apply v o).2 := by
  cases hrefill : o.refilling? with
  | none => exact (steady_apply hpublic hrefill).rules hrefill
  | some a => exact (Refilled.apply hrefill).rules hrefill

/-- What holds for all states of a container: it is of the class that it was made of, has the
level that it was made with, and if it is a struct, also the items and the signature. -/
structure Descends (c c' : Container) : Prop where
  sort : c'.contents.containerClass = c.contents.containerClass
  level : c'.tag.level = c.tag.level
  fixed : c.isFixed = true → c'.contents = c.contents ∧ c'.tag = c.tag

theorem Descends.apply (h : Descends c c') (hpublic : o.IsPublic) :
    Descends c (c'.apply v o).2 := by
  have hrules := rules_apply v c' hpublic
  refine ⟨hrules.sort.trans h.sort, hrules.level.trans h.level, fun hfixed => ?_⟩
  have hfixed' : c'.isFixed = true := isFixed_iff.mpr (h.sort.trans (isFixed_iff.mp hfixed))
  obtain ⟨hcontents, htag⟩ := hrules.fixed hfixed'
  exact ⟨hcontents.trans (h.fixed hfixed).1, htag.trans (h.fixed hfixed).2⟩

theorem descends_applyAll {ops : List (Except Fault Operation)} (h : Descends c c')
    (hops : ∀ o, .ok o ∈ ops → o.IsPublic) :
    ∀ d ∈ (applyAll v c' ops).map Prod.snd, Descends c d := by
  induction ops generalizing c' with
  | nil => simp [applyAll]
  | cons r rest ih =>
      have hrest : ∀ o, .ok o ∈ rest → o.IsPublic := fun o ho => hops o (by simp [ho])
      cases r with
      | error f =>
          simp only [applyAll, List.map_cons, List.forall_mem_cons]
          exact ⟨h, ih h hrest⟩
      | ok o =>
          have hafter := h.apply (v := v) (hops o (by simp))
          simp only [applyAll, List.map_cons, List.forall_mem_cons]
          exact ⟨hafter, ih hafter hrest⟩

/-- A container that has been made with success, and that is used in any way but setting or
deleting the private properties of its tag, has at all times the level that was given by name,
which is not negative, or else zero, and no signature or an accepted one; a struct stays as it
was made.  Whatever is done next keeps the rules. -/
theorem lifetime_rules {s : ContainerClass} {derivedName : Option String}
    (hmake : make v s derivedName a = .ok c) {ops : List (Except Fault Operation)}
    (hops : ∀ o, .ok o ∈ ops → o.IsPublic)
    (hc' : c' ∈ c :: (applyAll v c ops).map Prod.snd) :
    (∃ i, a.givenLevel.integer? = some i ∧ 0 ≤ i) ∧
      c'.getAttribute (.text levelParameter) = .ok a.givenLevel ∧
      c'.getAttribute (.text signatureParameter) = .ok c'.tag.signatureValue ∧
      (c'.tag.signatureValue = .null ∨ ∃ g, c'.tag.signatureValue = .signature g) ∧
      normalSignature v a.givenSignature = .ok c.tag.signature ∧
      (s = .struct → c'.toValue = c.toValue) ∧
      ∀ o, o.IsPublic → Rules v c' o (c'.apply v o).1 (c'.apply v o).2 := by
  obtain ⟨hsort, hlevel, hsignature⟩ := make_spec hmake
  have hdescends : Descends c c' := by
    have hself : Descends c c := ⟨rfl, rfl, fun _ => ⟨rfl, rfl⟩⟩
    rcases List.mem_cons.mp hc' with rfl | hc'
    · exact hself
    · exact descends_applyAll hself hops c' hc'
  refine ⟨⟨_, Level.integer?_of_ofValue hlevel, by omega⟩, ?_, getAttribute_signature c', ?_,
    hsignature, ?_, fun o => rules_apply v c'⟩
  · have hvalue := Level.levelValue_of_ofValue hlevel c'.tag.signature
    rw [getAttribute_level, ← hvalue, ← hdescends.level]
  · unfold Tag.signatureValue
    cases c'.tag.signature with
    | none => exact .inl rfl
    | some g => exact .inr ⟨g, rfl⟩
  · intro hs
    obtain ⟨hcontents, htag⟩ := hdescends.fixed (isFixed_iff.mpr (hsort.trans hs))
    rw [toValue, toValue, hcontents, htag]

/-- An array is filled anew, once with success and once not, and its level cannot be set. -/
theorem lifetime_rules_array : ∃ c c' : Container,
    make .ofGrammar .array (some "Paths") ⟨[.list [.int 1]],
      [(signatureParameter, .text "i"), (levelParameter, .int 2)]⟩ = .ok c ∧
    (applyAll .ofGrammar c [.ok (.method (.text "append") [.int 5]),
      .ok (.refill ⟨[.list [.int 7], .text "u", .int 9], []⟩),
      .ok (.refill ⟨[.int 5], [(signatureParameter, .text "s")]⟩),
      .ok (.setAttribute (.text levelParameter) (.int 3))]).map Prod.snd =
        [⟨"Paths", true, .array [.int 1, .int 5], c.tag, []⟩,
          ⟨"Paths", true, .array [.int 7], c'.tag, []⟩, c', c'] ∧
    c'.getAttribute (.text levelParameter) = .ok (.int 2) ∧
    c'.getAttribute (.text signatureParameter) = .ok (.signature ⟨"u"⟩) := by
  obtain ⟨c, hc⟩ : ∃ c : Container,
      c = ⟨"Paths", true, .array [.int 1], ⟨some ⟨"i"⟩, .count 2⟩, []⟩ := ⟨_, rfl⟩
  obtain ⟨c', hc'⟩ : ∃ c' : Container,
      c' = ⟨"Paths", true, .array [], ⟨some ⟨"u"⟩, .count 2⟩, []⟩ := ⟨_, rfl⟩
  have hmake : make .ofGrammar .array (some "Paths") ⟨[.list [.int 1]],
      [(signatureParameter, .text "i"), (levelParameter, .int 2)]⟩ = .ok c := hc ▸ rfl
  have hstates : (applyAll .ofGrammar c [.ok (.method (.text "append") [.int 5]),
      .ok (.refill ⟨[.list [.int 7], .text "u", .int 9], []⟩),
      .ok (.refill ⟨[.int 5], [(signatureParameter, .text "s")]⟩),
      .ok (.setAttribute (.text levelParameter) (.int 3))]).map Prod.snd =
        [⟨"Paths", true, .array [.int 1, .int 5], c.tag, []⟩,
          ⟨"Paths", true, .array [.int 7], c'.tag, []⟩, c', c'] := hc ▸ hc' ▸ rfl
  have hpublic : (Value.text levelParameter).IsPublic := by
    constructor <;> simp [Value.text?, levelParameter, keptSignature, keptLevel]
  have hops : ∀ o, .ok o ∈ ([.ok (.method (.text "append") [.int 5]),
      .ok (.refill ⟨[.list [.int 7], .text "u", .int 9], []⟩),
      .ok (.refill ⟨[.int 5], [(signatureParameter, .text "s")]⟩),
      .ok (.setAttribute (.text levelParameter) (.int 3))] : List (Except Fault Operation)) →
      o.IsPublic := by
    simp [Operation.IsPublic, Operation.target?, Value.text?, hpublic]
  obtain ⟨-, hlevel, hsignature, -⟩ := lifetime_rules hmake hops
    (List.mem_cons_of_mem c (hstates ▸ List.mem_of_getLast? rfl : c' ∈ _))
  refine ⟨c, c', hmake, hstates, hlevel, ?_⟩
  rw [hsignature, hc']
  rfl

end Container

end DBusHost
