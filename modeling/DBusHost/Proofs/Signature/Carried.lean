import DBusHost.Container.Construction

/-!
# The signatures in a value

A value can be a signature, and its containers can carry signatures.  `Value.signatures` lists
all of them, at any depth, and a value is accepted if all of them are.
-/

namespace DBusHost

/-- The text of the signature has no nul, and the validator accepts it. -/
def Signature.Accepted (v : Validator) (g : Signature) : Prop :=
  Text.hasNul g.text = false ∧ v.sequence g.text = .valid

instance (v : Validator) (g : Signature) : Decidable (g.Accepted v) :=
  inferInstanceAs (Decidable (_ ∧ _))

theorem Signature.accepted_of_check {v : Validator} {shown s : String} {g : Signature}
    (h : check v shown s = .ok g) : g.Accepted v ∧ g.text = s := by
  obtain ⟨hnul, hvalid, rfl⟩ := check_eq_ok_iff.mp h
  exact ⟨⟨hnul, hvalid⟩, rfl⟩

namespace Value

mutual

/-- The signatures that a value is made of and those that its containers carry. -/
def signatures : Value → List Signature
  | signature g => [g]
  | list xs | tuple xs => listSignatures xs
  | array xs t | struct xs t => t.signature.toList ++ listSignatures xs
  | map es => entrySignatures es
  | dictionary es t => t.signature.toList ++ entrySignatures es
  | _ => []
termination_by structural x => x

def listSignatures : List Value → List Signature
  | [] => []
  | x :: xs => x.signatures ++ listSignatures xs
termination_by structural xs => xs

def entrySignatures : List (Value × Value) → List Signature
  | [] => []
  | (k, x) :: es => k.signatures ++ x.signatures ++ entrySignatures es
termination_by structural es => es

end

/-- All signatures in the value are accepted. -/
def Accepted (v : Validator) (x : Value) : Prop := ∀ g ∈ x.signatures, g.Accepted v

instance (v : Validator) (x : Value) : Decidable (x.Accepted v) :=
  inferInstanceAs (Decidable (∀ g ∈ x.signatures, g.Accepted v))

theorem mem_listSignatures {g : Signature} {xs : List Value} :
    g ∈ listSignatures xs ↔ ∃ x ∈ xs, g ∈ x.signatures := by
  induction xs with
  | nil => simp [listSignatures]
  | cons x xs ih => simp [listSignatures, ih]

theorem mem_entrySignatures {g : Signature} {es : List (Value × Value)} :
    g ∈ entrySignatures es ↔ ∃ e ∈ es, g ∈ e.1.signatures ∨ g ∈ e.2.signatures := by
  induction es with
  | nil => simp [entrySignatures]
  | cons e es ih =>
      obtain ⟨k, x⟩ := e
      simp [entrySignatures, ih, or_assoc]

section

variable {v : Validator} {x : Value}

theorem Accepted.carried {t : Tag} {g : Signature} (h : x.Accepted v) (ht : x.tag? = some t)
    (hg : t.signature = some g) : g.Accepted v := by
  apply h
  cases x <;> simp_all [tag?, signatures]

theorem Accepted.item {xs : List Value} (h : x.Accepted v) (hx : x.items? = some xs) :
    ∀ y ∈ xs, y.Accepted v := by
  intro y hy g hg
  have hlist : g ∈ listSignatures xs := mem_listSignatures.mpr ⟨y, hy, hg⟩
  apply h
  cases x <;> simp_all [items?, signatures]

theorem Accepted.entry {es : List (Value × Value)} (h : x.Accepted v)
    (hx : x.entries? = some es) : ∀ e ∈ es, e.1.Accepted v ∧ e.2.Accepted v := by
  intro e he
  have hall : ∀ g, g ∈ e.1.signatures ∨ g ∈ e.2.signatures → g.Accepted v := by
    intro g hg
    have hlist : g ∈ entrySignatures es := mem_entrySignatures.mpr ⟨e, he, hg⟩
    apply h
    cases x <;> simp_all [entries?, signatures]
  exact ⟨fun g hg => hall g (.inl hg), fun g hg => hall g (.inr hg)⟩

theorem accepted_list {xs : List Value} (h : ∀ y ∈ xs, y.Accepted v) : Accepted v (list xs) := by
  intro g hg
  obtain ⟨y, hy, hg⟩ := mem_listSignatures.mp hg
  exact h y hy g hg

theorem accepted_tuple {xs : List Value} (h : ∀ y ∈ xs, y.Accepted v) :
    Accepted v (tuple xs) := accepted_list h

/-- A value without any signatures is accepted. -/
theorem accepted_of_signatures_eq_nil (h : x.signatures = []) : x.Accepted v := by
  intro g hg
  simp [h] at hg

/-- What an iteration over an accepted value gives is accepted. -/
theorem Accepted.element {xs : List Value} (h : x.Accepted v) (hx : x.elements? = some xs) :
    ∀ y ∈ xs, y.Accepted v := by
  cases x with
  | text | path | signature | bytes | buffer =>
      obtain rfl := Option.some.inj hx
      intro y hy
      obtain ⟨_, -, rfl⟩ := List.mem_map.mp hy
      exact accepted_of_signatures_eq_nil rfl
  | map es | dictionary es _ =>
      obtain rfl := Option.some.inj hx
      intro y hy
      obtain ⟨e, he, rfl⟩ := List.mem_map.mp hy
      exact (h.entry rfl e he).1
  | list | tuple | array | struct => exact h.item hx
  | _ => cases hx

/-- A guess is a variant, or it is what is guessed without variants. -/
theorem guessAt_eq_ok {g : Signature} {level : Nat} {plain : Except Fault String}
    (h : guessAt v level plain = .ok g) :
    (0 < level ∧ Signature.ofText v "v" = .ok g) ∨
      (level = 0 ∧ ∃ s, plain = .ok s ∧ Signature.ofText v s = .ok g) := by
  unfold guessAt at h
  split at h
  · exact .inl ⟨‹_›, h⟩
  · cases plain with
    | ok s => exact .inr ⟨by omega, s, rfl, h⟩
    | error f => simp at h

/-- What is guessed is accepted. -/
theorem accepted_of_guess {g : Signature} (h : x.guess v = .ok g) : g.Accepted v := by
  obtain ⟨-, h⟩ | ⟨-, s, -, h⟩ := guessAt_eq_ok h
  · exact (Signature.accepted_of_check h).1
  · exact (Signature.accepted_of_check h).1

end

end Value

/-! ## Contents that are put in -/

section

variable {v : Validator}

/-- The keys and the values are accepted. -/
def Entries.Accepted (v : Validator) (es : List (Value × Value)) : Prop :=
  ∀ e ∈ es, e.1.Accepted v ∧ e.2.Accepted v

namespace Entries

variable {es fs : List (Value × Value)} {k x : Value}

theorem Accepted.insert (hes : Accepted v es) (hk : k.Accepted v) (hx : x.Accepted v) :
    Accepted v (insert es k x) := by
  induction es with
  | nil => simpa [Entries.insert, Accepted] using ⟨hk, hx⟩
  | cons e rest ih =>
      obtain ⟨⟨hk', hx'⟩, hrest⟩ := List.forall_mem_cons.mp hes
      rw [Entries.insert]
      split
      · exact List.forall_mem_cons.mpr ⟨⟨hk', hx⟩, hrest⟩
      · exact List.forall_mem_cons.mpr ⟨⟨hk', hx'⟩, ih hrest⟩

theorem Accepted.insertPairs {ps : List Value} (hes : Accepted v es)
    (hps : ∀ p ∈ ps, p.Accepted v) : Accepted v (insertPairs es ps).2 := by
  induction ps generalizing es with
  | nil => exact hes
  | cons p ps ih =>
      obtain ⟨hp, hps⟩ := List.forall_mem_cons.mp hps
      unfold Entries.insertPairs
      split
      · exact hes
      case h_2 k x hpair =>
        have hparts := hp.element hpair
        split
        · exact ih (hes.insert (hparts k (by simp)) (hparts x (by simp))) hps
        · exact hes
      · exact hes

theorem Accepted.insertFrom {source : Value} (hes : Accepted v es) (hs : source.Accepted v) :
    Accepted v (insertFrom es source).2 := by
  unfold Entries.insertFrom
  split
  case h_1 fs hfs =>
    have hfs' := hs.entry hfs
    clear hfs
    induction fs generalizing es with
    | nil => exact hes
    | cons f fs ih =>
        obtain ⟨⟨hk, hx⟩, hfs⟩ := List.forall_mem_cons.mp hfs'
        exact ih (hes.insert hk hx) hfs
  · split
    case h_1 ps hps => exact hes.insertPairs (hs.element hps)
    · exact hes

end Entries

/-- The items, or the keys and the values, are accepted. -/
def Contents.Accepted (v : Validator) : Contents → Prop
  | .array xs | .struct xs => ∀ x ∈ xs, x.Accepted v
  | .dictionary es => Entries.Accepted v es

/-- A container is accepted if its contents and the signature that it carries are. -/
theorem Contents.accepted_toValue {d : Contents} {t : Tag} :
    (d.toValue t).Accepted v ↔ d.Accepted v ∧ ∀ g ∈ t.signature, g.Accepted v := by
  have hcarried : (d.toValue t).tag? = some t := by cases d <;> rfl
  constructor
  · intro h
    refine ⟨?_, fun g hg => h.carried hcarried hg⟩
    cases d with
    | array xs | struct xs => exact h.item rfl
    | dictionary es => exact h.entry rfl
  · rintro ⟨hd, ht⟩ g hg
    cases d with
    | array xs | struct xs =>
        rw [toValue, Value.signatures, List.mem_append, Value.mem_listSignatures] at hg
        obtain hg | ⟨x, hx, hg⟩ := hg
        · exact ht g (by simpa using hg)
        · exact hd x hx g hg
    | dictionary es =>
        rw [toValue, Value.signatures, List.mem_append, Value.mem_entrySignatures] at hg
        obtain hg | ⟨e, he, hg | hg⟩ := hg
        · exact ht g (by simpa using hg)
        · exact (hd e he).1 g hg
        · exact (hd e he).2 g hg

end

end DBusHost
