import DBusHost.Container.Use
import DBusHost.Message.Basic
import DBusHost.Proofs.Container.Lifetime

/-!
# Stricter validators

A validator that refuses more texts makes a difference in one way only: where a text is offered
that it refuses and another validator accepts, the use of the library ends in the fault of an
invalid signature.  Whatever does not end so goes the same way with both of them.

This is a relation between a computation and the same one with another validator.  It holds of
the one place where a text becomes a signature and goes through everything that is put together
from it.
-/

namespace DBusHost

/-- The second validator accepts all that the first one accepts. -/
def Validator.StricterThan (v v' : Validator) : Prop :=
  ∀ s, v.sequence s = .valid → v'.sequence s = .valid

/-- The validator does not let the text become a signature. -/
def Validator.Refuses (v : Validator) (s : String) : Prop :=
  Text.hasNul s = true ∨ v.sequence s ≠ .valid

/-- The fault is that of an invalid signature. -/
def Fault.IsInvalidSignature (f : Fault) : Prop := f.kind = .busInvalidSignature

section Evaluations

variable {α β : Type}

/-- The first evaluation ends as the second one does, or in the fault of an invalid signature. -/
def Defers (e e' : Except Fault α) : Prop :=
  e = e' ∨ ∃ f, e = .error f ∧ f.IsInvalidSignature

theorem defers_refl (e : Except Fault α) : Defers e e := .inl rfl

theorem Defers.bind {e e' : Except Fault α} {k k' : α → Except Fault β} (h : Defers e e')
    (hk : ∀ a, Defers (k a) (k' a)) : Defers (e >>= k) (e' >>= k') := by
  obtain rfl | ⟨f, rfl, hf⟩ := h
  · cases e with
    | ok a => exact hk a
    | error f => exact defers_refl _
  · exact .inr ⟨f, rfl, hf⟩

theorem Defers.map {e e' : Except Fault α} (h : Defers e e') (k : α → β) :
    Defers (k <$> e) (k <$> e') := by
  obtain rfl | ⟨f, rfl, hf⟩ := h
  · exact defers_refl _
  · exact .inr ⟨f, rfl, hf⟩

namespace Attempt

/-- The same for attempts, from wherever the script of failures stands. -/
def Defers (a a' : Attempt α) : Prop :=
  ∀ f, a.run.run f = a'.run.run f ∨
    ∃ fault f', a.run.run f = (.error fault, f') ∧ fault.IsInvalidSignature

theorem defers_refl (a : Attempt α) : Defers a a := fun _ => .inl rfl

theorem Defers.bind {a a' : Attempt α} {k k' : α → Attempt β} (h : Defers a a')
    (hk : ∀ x, Defers (k x) (k' x)) : Defers (a >>= k) (a' >>= k') := by
  intro f
  simp only [ExceptT.run_bind, StateT.run_bind]
  obtain heq | ⟨fault, f', hfault, hkind⟩ := h f
  · rw [heq]
    rcases a'.run.run f with ⟨e | x, f'⟩
    · exact .inl rfl
    · exact hk x f'
  · rw [hfault]
    exact .inr ⟨fault, f', rfl, hkind⟩

/-- What comes of an attempt, without the script of failures. -/
theorem Defers.result {a a' : Attempt α} (h : Defers a a') (f : Failures) :
    DBusHost.Defers (a.run.run f).1 (a'.run.run f).1 := by
  obtain heq | ⟨fault, f', hfault, hkind⟩ := h f
  · exact .inl (by rw [heq])
  · exact .inr ⟨fault, by rw [hfault], hkind⟩

theorem defers_lift {e e' : Except Fault α} (h : DBusHost.Defers e e') :
    Defers (Unmarshal.lift e) (Unmarshal.lift e') := by
  intro f
  obtain rfl | ⟨fault, rfl, hkind⟩ := h
  · exact .inl rfl
  · exact .inr ⟨fault, f, rfl, hkind⟩

/-- Inside an iteration, the fault of an invalid signature stays what it is. -/
theorem Defers.insideIteration {a a' : Attempt α} (h : Defers a a') :
    Defers (Unmarshal.insideIteration a) (Unmarshal.insideIteration a') := by
  intro f
  simp only [Unmarshal.insideIteration, ExceptT.run_tryCatch, StateT.run_bind]
  obtain heq | ⟨fault, f', hfault, hkind⟩ := h f
  · exact .inl (by rw [heq])
  · rw [hfault]
    refine .inr ⟨fault, f', ?_, hkind⟩
    cases fault with
    | ended => cases hkind
    | _ => rfl

end Attempt

end Evaluations

variable {v v' : Validator}

namespace Signature

theorem check_of_refuses {shown s : String} (h : v.Refuses s) :
    ∃ f, check v shown s = .error f ∧ f.IsInvalidSignature := by
  unfold check
  split
  · exact ⟨_, rfl, rfl⟩
  case isFalse hnul =>
    obtain hnul' | hinvalid := h
    · exact absurd hnul' hnul
    · split
      · contradiction
      · exact ⟨_, rfl, rfl⟩

theorem ofText_of_refuses {s : String} (h : v.Refuses s) :
    ∃ f, ofText v s = .error f ∧ f.IsInvalidSignature := check_of_refuses h

theorem defers_check (h : v.StricterThan v') (shown s : String) :
    Defers (check v shown s) (check v' shown s) := by
  by_cases hrefuses : v.Refuses s
  · exact .inr (check_of_refuses hrefuses)
  · obtain ⟨hnul, hvalid⟩ := not_or.mp hrefuses
    rw [not_not] at hvalid
    left
    simp [check, hvalid, h s hvalid]

theorem defers_ofText (h : v.StricterThan v') (s : String) :
    Defers (ofText v s) (ofText v' s) := defers_check h _ s

theorem defers_ofValue (h : v.StricterThan v') (x : Value) :
    Defers (ofValue v x) (ofValue v' x) := by
  have hbytes : ∀ bs, Defers (ofValue.ofBytes v bs) (ofValue.ofBytes v' bs) := by
    intro bs
    unfold ofValue.ofBytes
    split
    · exact defers_ofText h _
    · exact defers_refl _
  cases x with
  | text s => exact defers_ofText h s
  | path s => exact defers_check h _ s
  | bytes bs | buffer bs => exact hbytes bs
  | _ => exact defers_refl _

end Signature

namespace Value

theorem defers_guessAt (h : v.StricterThan v') (level : Nat) {plain plain' : Except Fault String}
    (hplain : Defers plain plain') : Defers (guessAt v level plain) (guessAt v' level plain') := by
  unfold guessAt
  split
  · exact Signature.defers_ofText h _
  · obtain rfl | ⟨f, rfl, hf⟩ := hplain
    · cases plain with
      | ok s => exact Signature.defers_ofText h s
      | error f => exact defers_refl _
    · exact .inr ⟨f, rfl, hf⟩

mutual

theorem defers_guessPlain (h : v.StricterThan v') : (x : Value) →
    Defers (guessPlain v x) (guessPlain v' x) := by
  intro x
  cases x with
  | tuple xs => exact defers_guessFields h xs
  | list xs => exact defers_guessElement h xs
  | map es => exact defers_guessEntry h es
  | struct xs t =>
      simp only [guessPlain]
      split
      · exact defers_refl _
      · exact defers_guessFields h xs
  | array xs t =>
      simp only [guessPlain]
      split
      · exact defers_refl _
      · exact defers_guessElement h xs
  | dictionary es t =>
      simp only [guessPlain]
      split
      · exact defers_refl _
      · exact defers_guessEntry h es
  | _ => exact defers_refl _

theorem defers_guessFields (h : v.StricterThan v') : (xs : List Value) →
    Defers (guessFields v xs) (guessFields v' xs)
  | [] => defers_refl _
  | x :: xs => (defers_guessAt h _ (defers_guessPlain h x)).bind fun _ =>
      (defers_guessEach h xs).bind fun _ => defers_refl _

theorem defers_guessEach (h : v.StricterThan v') : (xs : List Value) →
    Defers (guessEach v xs) (guessEach v' xs)
  | [] => defers_refl _
  | x :: xs => (defers_guessAt h _ (defers_guessPlain h x)).bind fun _ =>
      (defers_guessEach h xs).bind fun _ => defers_refl _

theorem defers_guessElement (h : v.StricterThan v') : (xs : List Value) →
    Defers (guessElement v xs) (guessElement v' xs)
  | [] => defers_refl _
  | x :: _ => (defers_guessAt h _ (defers_guessPlain h x)).bind fun _ => defers_refl _

theorem defers_guessEntry (h : v.StricterThan v') : (es : List (Value × Value)) →
    Defers (guessEntry v es) (guessEntry v' es)
  | [] => defers_refl _
  | (k, x) :: _ => (defers_guessAt h _ (defers_guessPlain h k)).bind fun _ =>
      (defers_guessAt h _ (defers_guessPlain h x)).bind fun _ => defers_refl _

end

theorem defers_guess (h : v.StricterThan v') (x : Value) : Defers (guess v x) (guess v' x) :=
  defers_guessAt h _ (defers_guessPlain h x)

end Value

/-! ## Containers -/

theorem defers_normalSignature (h : v.StricterThan v') (x : Value) :
    Defers (normalSignature v x) (normalSignature v' x) := by
  unfold normalSignature
  split
  · exact defers_refl _
  · exact (Signature.defers_ofValue h x).map _

theorem Arguments.defers_filling (h : v.StricterThan v') (s : ContainerClass) (a : Arguments) :
    Defers (a.filling v s) (a.filling v' s) := by
  unfold filling
  split
  · exact (defers_normalSignature h _).bind fun _ => defers_refl _
  · exact defers_refl _

theorem defers_makeContents (h : v.StricterThan v') (s : ContainerClass) (maker : String)
    (a : Arguments) : Defers (makeContents v s maker a) (makeContents v' s maker a) := by
  unfold makeContents
  split
  · exact defers_refl _
  · cases s with
    | array | dictionary =>
        exact (defers_refl _).bind fun _ => (a.defers_filling h _).bind fun _ => defers_refl _
    | struct =>
        dsimp only
        split
        · split
          · exact defers_refl _
          · exact (defers_refl _).bind fun _ =>
              (defers_normalSignature h _).bind fun _ => defers_refl _
        · exact defers_refl _

theorem Container.defers_make (h : v.StricterThan v') (s : ContainerClass)
    (derivedName : Option String) (a : Arguments) :
    Defers (make v s derivedName a) (make v' s derivedName a) :=
  (defers_makeContents h s _ a).bind fun _ => defers_refl _

/-- Filling anew goes the same way with both validators, or it ends in the fault of an invalid
signature and leaves the container as it was. -/
theorem Container.refill_of_stricter (h : v.StricterThan v') (c : Container) (a : Arguments) :
    c.apply v (.refill a) = c.apply v' (.refill a) ∨
      ∃ f, c.apply v (.refill a) = (.error f, c) ∧ f.IsInvalidSignature := by
  simp only [apply, refillByMethod]
  split
  · unfold refill
    split
    · exact .inl rfl
    · obtain heq | ⟨f, hf, hkind⟩ := a.defers_filling h .array
      · exact .inl (by rw [heq])
      · exact .inr ⟨f, by simp [hf, ask], hkind⟩
    · obtain heq | ⟨f, hf, hkind⟩ := a.defers_filling h .dictionary
      · exact .inl (by rw [heq])
      · exact .inr ⟨f, by simp [hf, ask], hkind⟩
  · exact .inl rfl

/-! ## Reading messages -/

theorem BasicType.defers_valueIn (h : v.StricterThan v') (t : BasicType) (content : Scalar) :
    Defers (t.valueIn v content) (t.valueIn v' content) := by
  cases t with
  | signature => exact (defers_refl _).bind fun s => (Signature.defers_ofText h s).bind fun _ =>
      defers_refl _
  | _ => exact defers_refl _

namespace Unmarshal

open Attempt

mutual

theorem defers_read (h : v.StricterThan v') : (level : Value) → (item : Item) →
    Attempt.Defers (read v level item) (read v' level item)
  | level, .basic type content => by
      simp only [read]
      split
      · exact defers_lift (BasicType.defers_valueIn h _ content)
      · exact Attempt.defers_refl _
  | level, .array element items => by
      simp only [read]
      refine (Attempt.defers_refl _).bind fun _ => ?_
      split
      · refine (defers_readEntries h items).bind fun entries => defers_lift ?_
        exact (defers_makeContents h _ _ _).bind fun _ => DBusHost.defers_refl _
      · refine (Attempt.defers_refl _).bind fun _ => ?_
        refine (defers_lift (Signature.defers_ofText h _)).bind fun _ => ?_
        exact (defers_readEach h items).bind fun _ => Attempt.defers_refl _
  | level, .struct items => by
      simp only [read]
      refine (defers_readEach h items).bind fun _ => (Attempt.defers_refl _).bind fun _ => ?_
      refine (Attempt.defers_refl _).bind fun _ => ?_
      exact (defers_lift (Signature.defers_ofText h _)).bind fun _ => Attempt.defers_refl _
  | level, .dictEntry _ => by
      simp only [read]
      exact Attempt.defers_refl _
  | level, .variant [] => by
      simp only [read]
      exact Attempt.defers_refl _
  | level, .variant (item :: _) => by
      simp only [read]
      exact (Attempt.defers_refl _).bind fun level => defers_read h level item

theorem defers_readEach (h : v.StricterThan v') : (items : List Item) →
    Attempt.Defers (readEach v items) (readEach v' items)
  | [] => by
      simp only [readEach]
      exact Attempt.defers_refl _
  | item :: rest => by
      simp only [readEach]
      exact (defers_read h _ item).insideIteration.bind fun _ =>
        (defers_readEach h rest).bind fun _ => Attempt.defers_refl _

theorem defers_readEntries (h : v.StricterThan v') : (items : List Item) →
    Attempt.Defers (readEntries v items) (readEntries v' items)
  | [] => by
      simp only [readEntries]
      exact Attempt.defers_refl _
  | .dictEntry items :: rest => by
      simp only [readEntries]
      exact (defers_readEach h items).bind fun _ =>
        (defers_readEntries h rest).bind fun _ => Attempt.defers_refl _
  | .basic .. :: _ | .array .. :: _ | .struct _ :: _ | .variant _ :: _ => by
      simp only [readEntries]
      exact Attempt.defers_refl _

end

end Unmarshal

namespace Reader

theorem defers_object (h : v.StricterThan v') (r : Reader) (level : Value) :
    Attempt.Defers (r.object v level) (r.object v' level) := by
  unfold object
  split
  · exact Unmarshal.defers_read h level _
  · exact Attempt.defers_refl _

theorem defers_basic (h : v.StricterThan v') (r : Reader) :
    Defers (r.basic v) (r.basic v') := by
  unfold basic basicValue
  split
  · split
    · exact BasicType.defers_valueIn h _ _
    · exact defers_refl _
  · exact defers_refl _

end Reader

end DBusHost
