import DBusHost.Proofs.Marshal.Acceptance
import DBusHost.Proofs.Marshal.Cells
import DBusHost.Proofs.Marshal.Offers
import DBusHost.Proofs.Signature.WellFormed
import Mathlib.Data.List.Forall2

/-!
# Which values can be written

`Conforms v t x` says, type by type, that a value conforms to a type.  While no native
routine fails, values can be appended according to a signature if and only if there is
exactly one for each complete type and each conforms to its type.
-/

namespace DBusHost

/-- A value conforms to a type. -/
inductive Conforms (v : Validator) : SigType → Value → Prop
  | basic {b : BasicType} {x : Value} (h : b.Admits v x) : Conforms v (.basic b) x
  | array {e : SigType} {x : Value} {xs : List Value} (hx : x.sequence? = some xs)
      (h : ∀ y ∈ xs, Conforms v e y) : Conforms v (.array e) x
  | dict {k : BasicType} {w : SigType} {x : Value} {es : List (Value × Value)}
      (hx : x.entries? = some es) (hkeys : ∀ e ∈ es, Conforms v (.basic k) e.1)
      (hvalues : ∀ e ∈ es, Conforms v w e.2) : Conforms v (.dict k w) x
  | struct {fs : List SigType} {x : Value} {xs : List Value} (hx : x.items? = some xs)
      (h : List.Forall₂ (Conforms v) fs xs) : Conforms v (.struct fs) x
  /-- The type that is guessed for the value without its own variants has to be one type
  that the validator accepts, and the value has to conform to it. -/
  | variant {x : Value} {s : String} {t : SigType} (hguess : x.guessPlain v = .ok s)
      (hnul : Text.hasNul s = false) (hvalid : v.sequence s = .valid)
      (hread : readTypes? s = some [t]) (h : Conforms v t x) : Conforms v .variant x

namespace Marshal

open Writing

variable {v : Validator}

theorem acceptsIff_write_basic (b : BasicType) (x : Value) (p : Place) :
    AcceptsIff (write v (.basic b) p x) (b.Admits v x) := by
  rw [write_basic, appendValue, BasicType.ofChar?_char]
  exact (acceptsIff_lift fun c _ => acceptsIff_appendBasic p b.char c).congr
    (by simp [BasicType.exists_cell_iff])

theorem acceptsIff_writeEach {e : SigType} {P : Value → Prop} {xs : List Value}
    (h : ∀ y ∈ xs, ∀ p, AcceptsIff (write v e p y) (P y)) (p : Place) :
    AcceptsIff (writeEach v e p xs) (∀ y ∈ xs, P y) := by
  induction xs with
  | nil => exact (acceptsIff_pure ()).congr (by simp)
  | cons x xs ih =>
      have hx := h x (by simp) p
      have hxs := ih fun y hy => h y (by simp [hy])
      exact (hx.bind fun _ => hxs).congr (by simp)

theorem acceptsIff_writeFields {P : SigType → Value → Prop} {ts : List SigType}
    {xs : List Value} (h : ∀ t ∈ ts, ∀ y ∈ xs, ∀ p, AcceptsIff (write v t p y) (P t y))
    (p : Place) : AcceptsIff (writeFields v ts p xs) (List.Forall₂ P ts xs) := by
  induction xs generalizing ts with
  | nil =>
      cases ts with
      | nil => exact (acceptsIff_pure ()).congr (by simp)
      | cons t ts => exact (acceptsIff_throw _).congr (by simp)
  | cons x xs ih =>
      cases ts with
      | nil => exact (acceptsIff_throw _).congr (by simp)
      | cons t ts =>
          have hx := h t (by simp) x (by simp) p
          have hxs : AcceptsIff (writeFields v ts p xs) (List.Forall₂ P ts xs) :=
            ih fun u hu y hy => h u (by simp [hu]) y (by simp [hy])
          exact (hx.bind fun _ => hxs).congr (by simp)

theorem acceptsIff_writeEntries {k : BasicType} {w : SigType} {P Q : Value → Prop}
    {es : List (Value × Value)}
    (hkeys : ∀ e ∈ es, ∀ p, AcceptsIff (write v (.basic k) p e.1) (P e.1))
    (hvalues : ∀ e ∈ es, ∀ p, AcceptsIff (write v w p e.2) (Q e.2)) (p : Place) :
    AcceptsIff (writeEntries v k w p es) ((∀ e ∈ es, P e.1) ∧ ∀ e ∈ es, Q e.2) := by
  induction es with
  | nil => exact (acceptsIff_pure ()).congr (by simp)
  | cons e es ih =>
      have hentry : ∀ q, AcceptsIff (do
          write v (.basic k) q e.1
          write v w q e.2) (P e.1 ∧ Q e.2) := fun q =>
        (hkeys e (by simp) q).bind fun _ => hvalues e (by simp) q
      have hes := ih (fun f hf => hkeys f (by simp [hf])) fun f hf => hvalues f (by simp [hf])
      refine ((acceptsIff_inContainer p .dictEntry none hentry).bind fun _ => hes).congr ?_
      simp only [List.mem_cons, forall_eq_or_imp]
      tauto

/-- A value can be written in variants if and only if the type that is guessed for it is one
accepted type as which it can be written. -/
theorem acceptsIff_writeVariant {x : Value} {P : SigType → Prop}
    (h : ∀ s t ts, x.guessPlain v = .ok s → readTypes? s = some (t :: ts) →
      ∀ p, AcceptsIff (write v t p x) (P t)) (outer : Nat) (p : Place) :
    AcceptsIff (writeVariant v x (Parts.ofValue v x) outer p)
      (∃ s, x.guessPlain v = .ok s ∧ ∃ g, Signature.ofText v s = .ok g ∧
        ∃ ts, g.types = .ok ts ∧ List.Forall₂ (fun t _ => P t) ts [x]) := by
  induction outer generalizing p with
  | zero =>
      refine acceptsIff_lift fun s hguess => acceptsIff_inContainer p _ _ fun q => ?_
      refine acceptsIff_lift fun g hg => acceptsIff_lift fun ts hts => ?_
      have hread := Signature.readTypes?_of_types hg hts
      rw [writeGuessed_eq hguess hread]
      cases ts with
      | nil => exact (acceptsIff_throw _).congr (by simp)
      | cons t ts =>
          have hx : AcceptsIff (write v t q x) (P t) := h s t ts hguess hread q
          have hrest : AcceptsIff (writeFields v ts q []) (ts = []) := by
            cases ts with
            | nil => exact (acceptsIff_pure ()).congr (by simp)
            | cons u us => exact (acceptsIff_throw _).congr (by simp)
          exact (hx.bind fun _ => hrest).congr (by simp)
  | succ outer ih => exact acceptsIff_inContainer p _ _ fun q => ih q

theorem conforms_variant_iff {x : Value} :
    Conforms v .variant x ↔ ∃ s, x.guessPlain v = .ok s ∧ ∃ g, Signature.ofText v s = .ok g ∧
      ∃ ts, g.types = .ok ts ∧ List.Forall₂ (fun t _ => Conforms v t x) ts [x] := by
  constructor
  · intro h
    cases h with
    | @variant _ s t hguess hnul hvalid hread h =>
        refine ⟨s, hguess, ⟨s⟩, Signature.check_eq_ok_iff.mpr ⟨hnul, hvalid, rfl⟩, [t], ?_, ?_⟩
        · simp only [Signature.types, hread]
        · simpa using h
  · rintro ⟨s, hguess, g, hg, ts, hts, h⟩
    obtain ⟨hnul, hvalid, rfl⟩ := Signature.check_eq_ok_iff.mp hg
    obtain ⟨t, ht, rfl⟩ : ∃ t, Conforms v t x ∧ ts = [t] := by
      cases h with
      | cons ht hrest =>
          cases hrest
          exact ⟨_, ht, rfl⟩
    cases hread : readTypes? s with
    | none => simp [Signature.types, hread] at hts
    | some us =>
        obtain rfl : us = [t] := by simpa [Signature.types, hread] using hts
        exact .variant hguess hnul hvalid hread ht

/-- While no native routine fails, exactly the conforming values can be written. -/
theorem acceptsIff_write (t : SigType) (x : Value) :
    ∀ p, AcceptsIff (write v t p x) (Conforms v t x) := by
  induction t, x using typed_induction v with
  | basic b x =>
      intro p
      refine (acceptsIff_write_basic b x p).congr ⟨.basic, fun h => ?_⟩
      cases h with
      | basic h => exact h
  | array e x ih =>
      intro p
      cases hx : x.sequence? with
      | none =>
          rw [write_array_of_none hx]
          refine (acceptsIff_throw _).congr ⟨False.elim, fun h => ?_⟩
          cases h with
          | array hy _ => simp [hx] at hy
      | some xs =>
          rw [write_array hx]
          have hfill := acceptsIff_inContainer p .array (some e.text)
            (acceptsIff_writeEach fun y hy => ih xs hx y hy)
          refine ((acceptsIff_call _).bind fun _ => hfill).congr ⟨fun h => .array hx h.2, ?_⟩
          intro h
          cases h with
          | array hy h =>
              obtain rfl := Option.some.inj (hx.symm.trans hy)
              exact ⟨trivial, h⟩
  | dict k w x ih =>
      intro p
      cases hx : x.entries? with
      | none =>
          rw [write_dict_of_none hx]
          refine (acceptsIff_throw _).congr ⟨False.elim, fun h => ?_⟩
          cases h with
          | dict hy _ _ => simp [hx] at hy
      | some es =>
          rw [write_dict hx]
          have hentries := acceptsIff_writeEntries (fun e he => (ih es hx e he).1)
            fun e he => (ih es hx e he).2
          have hfill := acceptsIff_inContainer p .array (some (entryText k w)) hentries
          refine ((acceptsIff_call _).bind fun _ => hfill).congr
            ⟨fun h => .dict hx h.2.1 h.2.2, fun h => ?_⟩
          cases h with
          | dict hy hkeys hvalues =>
              obtain rfl := Option.some.inj (hx.symm.trans hy)
              exact ⟨trivial, hkeys, hvalues⟩
  | struct fs x ih =>
      intro p
      cases hx : x.items? with
      | none =>
          rw [write_struct_of_none hx]
          refine (acceptsIff_throw _).congr ⟨False.elim, fun h => ?_⟩
          cases h with
          | struct hy _ => simp [hx] at hy
      | some xs =>
          rw [write_struct hx]
          have hfill := acceptsIff_inContainer p .struct none
            (acceptsIff_writeFields fun t ht y hy => ih xs hx t ht y hy)
          refine hfill.congr ⟨.struct hx, fun h => ?_⟩
          cases h with
          | struct hy h =>
              obtain rfl := Option.some.inj (hx.symm.trans hy)
              exact h
  | variant x ih =>
      intro p
      rw [write_variant]
      exact (acceptsIff_writeVariant ih _ p).congr conforms_variant_iff.symm

/-- The types according to which values are appended: those of the signature, or of the one
that is guessed. -/
def typesFor (v : Validator) (signature : Value) (values : List Value) :
    Except Fault (List SigType) := do
  let signature ← match signature with
    | .null => .text <$> Value.guessAll v values
    | s => pure s
  let g ← Signature.ofValue v signature
  g.types

theorem lift_bind {α β : Type} (e : Except Fault α) (k : α → Except Fault β) :
    lift (e >>= k) = lift e >>= fun a => lift (k a) := by
  cases e <;> rfl

/-- Appending settles the types first and then writes one value for each. -/
theorem append_eq (v : Validator) (signature x : Value) :
    append v signature x = (do
      let ts ← lift (typesFor v signature (arguments x))
      writeFields v ts .body (arguments x)) := by
  cases signature <;> simp only [append, typesFor, lift_bind, bind_assoc, pure_bind]

theorem typesFor_eq_ok {signature : Value} {s : String} {ts : List SigType}
    (hsignature : Signature.ofValue v signature = .ok ⟨s⟩) (hread : readTypes? s = some ts)
    (values : List Value) : typesFor v signature values = .ok ts := by
  have htypes : Signature.types ⟨s⟩ = .ok ts := by simp only [Signature.types, hread]
  cases signature with
  | null => simp [Signature.ofValue] at hsignature
  | _ =>
      simp only [typesFor, pure_bind, hsignature]
      exact htypes

/-- Appending according to an accepted signature writes one value for each type. -/
theorem append_eq_writeFields {signature : Value} {s : String} {ts : List SigType}
    (hsignature : Signature.ofValue v signature = .ok ⟨s⟩) (hread : readTypes? s = some ts)
    (x : Value) : append v signature x = writeFields v ts .body (arguments x) := by
  rw [append_eq, typesFor_eq_ok hsignature hread]
  rfl

theorem acceptsIff_append {signature : Value} {s : String} {ts : List SigType}
    (hsignature : Signature.ofValue v signature = .ok ⟨s⟩) (hread : readTypes? s = some ts)
    (x : Value) :
    AcceptsIff (append v signature x) (List.Forall₂ (Conforms v) ts (arguments x)) := by
  rw [append_eq_writeFields hsignature hread]
  exact acceptsIff_writeFields (fun t _ y _ => acceptsIff_write t y) .body

/-- While no native routine fails, values can be appended according to a signature if and
only if there is one for each complete type and each conforms to its type. -/
theorem append_ok_iff_conforms {signature : Value} {s : String} {ts : List SigType}
    (hsignature : Signature.ofValue v signature = .ok ⟨s⟩) (hread : readTypes? s = some ts)
    (x : Value) {d : Desk} (hd : d.failures = []) :
    ((append v signature x).run.run d).1 = .ok () ↔
      List.Forall₂ (Conforms v) ts (arguments x) :=
  (acceptsIff_append hsignature hread x).run_eq_ok_iff hd

/-- An entry and a number are appended, so they conform. -/
theorem conforms_of_append_entry :
    Signature.ofValue (Validator.ofRefusals [] []) (.text "a\x7bsv\x7di") = .ok ⟨"a\x7bsv\x7di"⟩ ∧
      readTypes? "a\x7bsv\x7di" = some [.dict .string .variant, .basic .int32] ∧
      ((append (Validator.ofRefusals [] []) (.text "a\x7bsv\x7di")
        (.list [.map [(.text "k", .list [.int 7])], .bool true])).run.run
        ⟨[], .ofBody [], []⟩).1 = .ok () ∧
      List.Forall₂ (Conforms (Validator.ofRefusals [] []))
        [.dict .string .variant, .basic .int32]
        [.map [(.text "k", .list [.int 7])], .bool true] := by
  have hsignature : Signature.ofValue (Validator.ofRefusals [] []) (.text "a\x7bsv\x7di") =
      .ok ⟨"a\x7bsv\x7di"⟩ := by decide
  have hread : readTypes? "a\x7bsv\x7di" = some [.dict .string .variant, .basic .int32] := by
    rfl
  have happend : ((append (Validator.ofRefusals [] []) (.text "a\x7bsv\x7di")
      (.list [.map [(.text "k", .list [.int 7])], .bool true])).run.run
      ⟨[], .ofBody [], []⟩).1 = .ok () := by
    decide +kernel
  exact ⟨hsignature, hread, happend, (append_ok_iff_conforms hsignature hread _ rfl).mp happend⟩

end Marshal

end DBusHost
