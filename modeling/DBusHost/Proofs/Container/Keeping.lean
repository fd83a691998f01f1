import DBusHost.Container.Use

/-!
# What an operation keeps

The tag of a container has two parts with rules of their own.  The level never changes.  The
signature of an array or a dictionary changes when the container is filled anew and all goes
well, and by nothing else; a struct changes in nothing.

The properties that keep the tag of an array or a dictionary can be set by name, so that all of
this is about operations that leave these two alone.
-/

namespace DBusHost

namespace Operation

/-- The arguments that the operation fills the container anew with, if that is what it does. -/
def refilling? : Operation → Option Arguments
  | refill a => some a
  | method name arguments => if name.text? = some "__init__" then some ⟨arguments, []⟩ else none
  | _ => none

/-- The name of the attribute that the operation sets or deletes, if that is what it does. -/
def target? : Operation → Option Value
  | setAttribute name _ | deleteAttribute name => some name
  | method name (target :: _) =>
      if name.text? = some "__setattr__" ∨ name.text? = some "__delattr__" then some target
      else none
  | _ => none

end Operation

/-- The name is not that of a property that keeps the tag. -/
def Value.IsPublic (name : Value) : Prop :=
  name.text? ≠ some keptSignature ∧ name.text? ≠ some keptLevel

/-- The operation sets and deletes no attribute but those with a public name. -/
def Operation.IsPublic (o : Operation) : Prop := ∀ name, o.target? = some name → name.IsPublic

namespace Container

/-- The container is of the same class as before and has the same tag; if it is a struct, it has
the same items. -/
structure Steady (c c' : Container) : Prop where
  tag : c'.tag = c.tag
  sort : c'.contents.containerClass = c.contents.containerClass
  fixed : c.isFixed = true → c'.contents = c.contents

variable {v : Validator} {c c' : Container} {k x : Value}

theorem steady_self (c : Container) : Steady c c := ⟨rfl, rfl, fun _ => rfl⟩

theorem steady_ask (answer : Except Fault Value) : Steady c (c.ask answer).2 := steady_self c

theorem steady_extras (extras : List (Value × Value)) : Steady c { c with extras } :=
  ⟨rfl, rfl, fun _ => rfl⟩

theorem isFixed_iff : c.isFixed = true ↔ c.contents.containerClass = .struct := by
  unfold isFixed
  cases c.contents <;> simp [Contents.containerClass]

/-- Other contents of the same class keep the tag; a struct has to have the same contents. -/
theorem steady_contents {d : Contents} (hsort : d.containerClass = c.contents.containerClass)
    (hfixed : c.isFixed = true → d = c.contents) : Steady c { c with contents := d } :=
  ⟨rfl, hsort, hfixed⟩

theorem steady_change {α : Type} {e : Except Fault α} {f : α → Contents}
    (hfixed : c.isFixed = false)
    (hsort : ∀ a, (f a).containerClass = c.contents.containerClass) :
    Steady c (c.change (f <$> e)).2 := by
  cases e with
  | ok a => exact steady_contents (hsort a) fun h => absurd h (by simp [hfixed])
  | error _ => exact steady_self c

theorem steady_set : Steady c (c.set k x).2 := by
  unfold set
  cases hd : c.contents with
  | struct => exact steady_ask _
  | array | dictionary => exact steady_change (by simp [isFixed, hd]) fun _ => hd ▸ rfl

theorem steady_delete : Steady c (c.delete k).2 := by
  unfold delete
  cases hd : c.contents with
  | struct => exact steady_ask _
  | array | dictionary => exact steady_change (by simp [isFixed, hd]) fun _ => hd ▸ rfl

theorem steady_callCollection (name : String) (arguments : List Value) :
    Steady c (c.callCollection name arguments).2 := by
  unfold callCollection
  cases hd : c.contents with
  | struct xs =>
      have hsteady : Steady c { c with contents := .struct xs } :=
        steady_contents (hd ▸ rfl) fun _ => hd.symm
      dsimp only
      split <;> exact hsteady
  | array xs =>
      have hsteady : Steady c { c with contents := .array (callList xs name arguments).2 } :=
        steady_contents (hd ▸ rfl) (by simp [isFixed, hd])
      dsimp only
      split <;> exact hsteady
  | dictionary es =>
      have hsteady : Steady c { c with contents := .dictionary (callMap es name arguments).2 } :=
        steady_contents (hd ▸ rfl) (by simp [isFixed, hd])
      dsimp only
      split <;> exact hsteady

/-! ## Attributes -/

theorem steady_keepExtras : Steady c (c.keepExtras x).2 := by
  unfold keepExtras
  cases x.entries? with
  | some es => exact steady_extras es
  | none => exact steady_ask _

/-- Setting an attribute with a public name leaves the tag and the contents alone. -/
theorem steady_putAttribute {name : Value} (h : name.IsPublic) :
    Steady c (c.putAttribute name x).2 := by
  unfold putAttribute
  cases hs : name.text? with
  | none => exact steady_ask _
  | some s =>
      have hsignature : s ≠ keptSignature := fun heq => h.1 (by rw [hs, heq])
      have hlevel : s ≠ keptLevel := fun heq => h.2 (by rw [hs, heq])
      simp only [if_neg hsignature, if_neg hlevel]
      split
      · exact steady_ask _
      · split
        · exact steady_keepExtras
        · exact steady_ask _
      · split
        · exact steady_extras _
        · exact steady_ask _

theorem steady_dropAttribute {name : Value} : Steady c (c.dropAttribute name).2 := by
  unfold dropAttribute
  split
  · exact steady_ask _
  · split
    · exact steady_ask _
    · split
      · exact steady_extras _
      · exact steady_ask _
    · split
      · exact steady_extras _
      · exact steady_ask _

theorem steady_setAttribute {name : Value} (h : name.IsPublic) :
    Steady c (c.setAttribute name x).2 := by
  unfold setAttribute
  split
  · exact steady_ask _
  · split
    · exact steady_ask _
    · exact steady_putAttribute h

theorem steady_deleteAttribute {name : Value} : Steady c (c.deleteAttribute name).2 := by
  unfold deleteAttribute
  split
  · exact steady_ask _
  · split
    · exact steady_ask _
    · exact steady_dropAttribute

/-! ## Methods and all operations -/

theorem steady_call {name : String} {arguments : List Value} (hinit : name ≠ "__init__")
    (hpublic : ∀ target rest, name = "__setattr__" → arguments = target :: rest →
      target.IsPublic) : Steady c (c.call v name arguments).2 := by
  unfold call
  split
  -- What is left beside the questions: `__init__`, `__setattr__`, `__delattr__` and the
  -- methods of the collection.
  all_goals try exact steady_ask _
  · exact absurd rfl hinit
  · split
    · exact steady_ask _
    · exact steady_putAttribute (hpublic _ _ rfl rfl)
  · split
    · exact steady_ask _
    · exact steady_dropAttribute
  · exact steady_callCollection _ _

/-- The method of a name is called, or the operation fails. -/
theorem method_cases (name : Value) (arguments : List Value) :
    (∃ s, name.text? = some s ∧ c.method v name arguments = c.call v s arguments) ∨
      ∃ f, c.method v name arguments = (.error f, c) := by
  unfold method
  cases hfound : c.findAttribute name with
  | error f => exact .inr ⟨f, rfl⟩
  | ok a =>
      cases a with
      | data _ => exact .inr ⟨_, rfl⟩
      | method _ =>
          cases hs : name.text? with
          | none => simp [findAttribute, hs] at hfound
          | some s => exact .inl ⟨s, rfl, rfl⟩

/-- An operation on attributes with public names that does not fill the container anew keeps
the tag, and all of a struct. -/
theorem steady_apply {o : Operation} (hpublic : o.IsPublic) (hrefill : o.refilling? = none) :
    Steady c (c.apply v o).2 := by
  cases o with
  | set k x => exact steady_set
  | delete k => exact steady_delete
  | setAttribute name x => exact steady_setAttribute (hpublic name rfl)
  | deleteAttribute name => exact steady_deleteAttribute
  | refill a => simp [Operation.refilling?] at hrefill
  | method name arguments =>
      obtain ⟨s, hs, hcall⟩ | ⟨f, hfails⟩ := method_cases name arguments (c := c) (v := v)
      · rw [apply, hcall]
        refine steady_call ?_ ?_
        · rintro rfl
          simp [Operation.refilling?, hs] at hrefill
        · rintro target rest rfl rfl
          exact hpublic target (by simp [Operation.target?, hs])
      · rw [apply, hfails]
        exact steady_self c
  | _ => exact steady_ask _

/-- Filling a container anew by an operation is what `refill` does, or fails before it. -/
theorem apply_of_refilling? {o : Operation} {a : Arguments} (h : o.refilling? = some a) :
    c.apply v o = c.refill v a ∨ ∃ f, c.apply v o = (.error f, c) := by
  cases o with
  | refill b =>
      obtain rfl : b = a := by simpa [Operation.refilling?] using h
      simp only [apply, refillByMethod]
      split
      · exact .inl rfl
      · exact .inr ⟨_, rfl⟩
  | method name arguments =>
      obtain ⟨hname, rfl⟩ : name.text? = some "__init__" ∧ ⟨arguments, []⟩ = a := by
        simpa [Operation.refilling?] using h
      obtain ⟨s, hs, hcall⟩ | ⟨f, hfails⟩ := method_cases name arguments (c := c) (v := v)
      · obtain rfl : s = "__init__" := Option.some.inj (hs.symm.trans hname)
        exact .inl hcall
      · exact .inr ⟨f, hfails⟩
  | _ => simp [Operation.refilling?] at h

end Container

end DBusHost
