import DBusHost.Proofs.Marshal.Conformance
import DBusHost.Proofs.Marshal.Requests

/-!
# The requests for a value

`Asks v t x rs` lists what writing a value as a type asks for, for all values and types: where
a value does not conform to a type, the list stops with the fault that is then reported.
Writing a value, whatever the native library makes of it, performs these requests or gives up
at one of them.  An induction over types and values shows this from the rules for writings
that perform requests, one for each way to put requests together.
-/

namespace DBusHost

/-- Requests to fill a container, with those to open and to close it. -/
def Request.bracket (k : ContainerKind) (signature : Option String) (rs : List Request) :
    List Request := .enter k signature :: (rs ++ [.leave])

/-- Requests to fill a number of variants that have a variant in them. -/
def Request.inVariants : Nat → List Request → List Request
  | 0, rs => rs
  | n + 1, rs => bracket .variant (some "v") (inVariants n rs)

open Request

mutual

/-- Writing a value as a type asks for these requests. -/
inductive Asks (v : Validator) : SigType → Value → List Request → Prop
  | basic {b : BasicType} {x : Value} {c : Scalar} (h : b.cell v x = .ok c) :
      Asks v (.basic b) x [.basic b.char c]
  | noCell {b : BasicType} {x : Value} {f : Fault} (h : b.cell v x = .error f) :
      Asks v (.basic b) x [.stop f]
  | array {e : SigType} {x : Value} {xs : List Value} {rs : List Request}
      (hx : x.sequence? = some xs) (h : AsksAll v (List.replicate xs.length e) xs rs) :
      Asks v (.array e) x (.spell :: bracket .array (some e.text) rs)
  | noElements {e : SigType} {x : Value} (hx : x.sequence? = none) :
      Asks v (.array e) x [.stop .arrayNeedsSequence]
  | dict {k : BasicType} {w : SigType} {x : Value} {es : List (Value × Value)}
      {rs : List Request} (hx : x.entries? = some es) (h : AsksEntries v k w es rs) :
      Asks v (.dict k w) x (.spell :: bracket .array (some (Marshal.entryText k w)) rs)
  | noEntries {k : BasicType} {w : SigType} {x : Value} (hx : x.entries? = none) :
      Asks v (.dict k w) x [.stop .entriesNeedMap]
  | struct {fs : List SigType} {x : Value} {xs : List Value} {rs : List Request}
      (hx : x.items? = some xs) (h : AsksAll v fs xs rs) :
      Asks v (.struct fs) x (bracket .struct none rs)
  | noFields {fs : List SigType} {x : Value} (hx : x.items? = none) :
      Asks v (.struct fs) x [.stop .structNeedsSequence]
  /-- No type can be guessed, which shows before the innermost variant is opened. -/
  | unguessed {x : Value} {f : Fault} (h : x.guessPlain v = .error f) :
      Asks v .variant x (inVariants (x.level - 1) [.stop f])
  /-- The guessed type is rejected inside the innermost variant. -/
  | rejected {x : Value} {s : String} {f : Fault} (hguess : x.guessPlain v = .ok s)
      (h : (Signature.ofText v s >>= Signature.types) = .error f) :
      Asks v .variant x (inVariants (x.level - 1) (bracket .variant (some s) [.stop f]))
  | variant {x : Value} {s : String} {ts : List SigType} {rs : List Request}
      (hguess : x.guessPlain v = .ok s)
      (hts : (Signature.ofText v s >>= Signature.types) = .ok ts) (h : AsksAll v ts [x] rs) :
      Asks v .variant x (inVariants (x.level - 1) (bracket .variant (some s) rs))

/-- Writing values as one type each asks for these requests. -/
inductive AsksAll (v : Validator) : List SigType → List Value → List Request → Prop
  | nil : AsksAll v [] [] []
  | tooFew {t : SigType} {ts : List SigType} : AsksAll v (t :: ts) [] [.stop .tooFewValues]
  | tooMany {x : Value} {xs : List Value} : AsksAll v [] (x :: xs) [.stop .tooManyValues]
  | cons {t : SigType} {ts : List SigType} {x : Value} {xs : List Value}
      {rs rs' : List Request} (h : Asks v t x rs) (hs : AsksAll v ts xs rs') :
      AsksAll v (t :: ts) (x :: xs) (rs ++ rs')

/-- Writing entries as dict entries asks for these requests. -/
inductive AsksEntries (v : Validator) :
    BasicType → SigType → List (Value × Value) → List Request → Prop
  | nil {k : BasicType} {w : SigType} : AsksEntries v k w [] []
  | cons {k : BasicType} {w : SigType} {x y : Value} {es : List (Value × Value)}
      {rs rs' : List Request} (h : AsksAll v [.basic k, w] [x, y] rs)
      (hs : AsksEntries v k w es rs') :
      AsksEntries v k w ((x, y) :: es) (bracket .dictEntry none rs ++ rs')

end

namespace Marshal

open Writing

variable {v : Validator}

/-- Writing a value as a type performs what it asks for. -/
def Planned (v : Validator) (t : SigType) (x : Value) : Prop :=
  ∃ rs, Asks v t x rs ∧ Performs (fun p => write v t p x) rs

theorem planned_basic (b : BasicType) (x : Value) : Planned v (.basic b) x := by
  simp only [Planned, write_basic, appendValue, BasicType.ofChar?_char]
  cases hc : b.cell v x with
  | error f => exact ⟨_, .noCell hc, performs_throw f⟩
  | ok c => exact ⟨_, .basic hc, performs_appendBasic b.char c⟩

theorem performs_writeFields {ts : List SigType} {xs : List Value}
    (h : ∀ t ∈ ts, ∀ y ∈ xs, Planned v t y) :
    ∃ rs, AsksAll v ts xs rs ∧ Performs (fun p => writeFields v ts p xs) rs := by
  induction xs generalizing ts with
  | nil =>
      cases ts with
      | nil => exact ⟨_, .nil, performs_pure⟩
      | cons t ts => exact ⟨_, .tooFew, performs_throw _⟩
  | cons x xs ih =>
      cases ts with
      | nil => exact ⟨_, .tooMany, performs_throw _⟩
      | cons t ts =>
          obtain ⟨rs, hasks, hperforms⟩ := h t (by simp) x (by simp)
          obtain ⟨rs', hasks', hperforms'⟩ : ∃ rs', AsksAll v ts xs rs' ∧
              Performs (fun p => writeFields v ts p xs) rs' :=
            ih fun u hu y hy => h u (by simp [hu]) y (by simp [hy])
          exact ⟨_, .cons hasks hasks', hperforms.bind hperforms'⟩

theorem performs_writeEntries {k : BasicType} {w : SigType} {es : List (Value × Value)}
    (h : ∀ e ∈ es, Planned v (.basic k) e.1 ∧ Planned v w e.2) :
    ∃ rs, AsksEntries v k w es rs ∧ Performs (fun p => writeEntries v k w p es) rs := by
  induction es with
  | nil => exact ⟨_, .nil, performs_pure⟩
  | cons e es ih =>
      obtain ⟨x, y⟩ := e
      obtain ⟨⟨rs, hasks, hperforms⟩, ⟨rs', hasks', hperforms'⟩⟩ := h (x, y) (by simp)
      obtain ⟨rest, hrest, hperformsRest⟩ := ih fun f hf => h f (by simp [hf])
      refine ⟨_, .cons (.cons hasks (.cons hasks' .nil)) hrest, ?_⟩
      rw [List.append_nil]
      exact ((hperforms.bind hperforms').inContainer .dictEntry none).bind hperformsRest

/-- A value in variants asks for what it asks for in the innermost one. -/
theorem performs_inVariants {x : Value} {parts : Parts} {rs : List Request}
    (h : Performs (fun p => writeVariant v x parts 0 p) rs) (outer : Nat) :
    Performs (fun p => writeVariant v x parts outer p) (inVariants outer rs) := by
  induction outer with
  | zero => exact h
  | succ outer ih => exact ih.inContainer .variant (some "v")

/-- The innermost variant is filled once its types are known. -/
theorem performs_innermost {x : Value} {parts : Parts} {s : String} {rs : List Request}
    (hguess : x.guessPlain v = .ok s)
    (h : Performs (fun p => do
      let ts ← lift (Signature.ofText v s >>= Signature.types)
      writeGuessed v ts x parts p) rs) :
    Performs (fun p => writeVariant v x parts 0 p) (bracket .variant (some s) rs) := by
  simp only [lift_bind, bind_assoc] at h
  simp only [writeVariant, hguess]
  exact h.inContainer .variant (some s)

theorem readTypes?_of_ofText_types {s : String} {ts : List SigType}
    (h : (Signature.ofText v s >>= Signature.types) = .ok ts) : readTypes? s = some ts := by
  cases hg : Signature.ofText v s with
  | error f => simp [hg, bind, Except.bind] at h
  | ok g =>
      rw [hg] at h
      exact Signature.readTypes?_of_types hg h

/-- The contents of a variant ask for one value of the guessed types. -/
theorem performs_writeGuessed {x : Value} {s : String} {ts : List SigType}
    (hguess : x.guessPlain v = .ok s) (hread : readTypes? s = some ts)
    (h : ∀ t us, ts = t :: us → Planned v t x) :
    ∃ rs, AsksAll v ts [x] rs ∧
      Performs (fun p => writeGuessed v ts x (Parts.ofValue v x) p) rs := by
  simp only [writeGuessed_eq hguess hread]
  cases ts with
  | nil => exact ⟨_, .tooMany, performs_throw _⟩
  | cons t ts =>
      obtain ⟨rs, hasks, hperforms⟩ := h t ts rfl
      obtain ⟨rs', hasks', hperforms'⟩ : ∃ rs', AsksAll v ts [] rs' ∧
          Performs (fun p => writeFields v ts p []) rs' := performs_writeFields (by simp)
      exact ⟨_, .cons hasks hasks', hperforms.bind hperforms'⟩

theorem planned_variant {x : Value}
    (h : ∀ s t ts, x.guessPlain v = .ok s → readTypes? s = some (t :: ts) → Planned v t x) :
    Planned v .variant x := by
  simp only [Planned, write_variant]
  cases hguess : x.guessPlain v with
  | error f =>
      have hstop : Performs (fun p => writeVariant v x (Parts.ofValue v x) 0 p) [.stop f] := by
        simp only [writeVariant, hguess]
        exact performs_throw f
      exact ⟨_, .unguessed hguess, performs_inVariants hstop _⟩
  | ok s =>
      cases hts : Signature.ofText v s >>= Signature.types with
      | error f =>
          have hstop : Performs (fun p => writeVariant v x (Parts.ofValue v x) 0 p)
              (bracket .variant (some s) [.stop f]) := by
            apply performs_innermost hguess
            rw [hts]
            exact performs_throw f
          exact ⟨_, .rejected hguess hts, performs_inVariants hstop _⟩
      | ok ts =>
          obtain ⟨rs, hasks, hperforms⟩ : ∃ rs, AsksAll v ts [x] rs ∧
              Performs (fun p => writeGuessed v ts x (Parts.ofValue v x) p) rs := by
            have hread := readTypes?_of_ofText_types hts
            exact performs_writeGuessed hguess hread fun t us hus => h s t us hguess (hus ▸ hread)
          have hfill : Performs (fun p => writeVariant v x (Parts.ofValue v x) 0 p)
              (bracket .variant (some s) rs) := by
            apply performs_innermost hguess
            rw [hts]
            exact hperforms
          exact ⟨_, .variant hguess hts hasks, performs_inVariants hfill _⟩

/-- Writing a value as a type performs what it asks for, or gives up at one of the requests. -/
theorem planned (t : SigType) (x : Value) : Planned v t x := by
  induction t, x using typed_induction v with
  | basic b x => exact planned_basic b x
  | array e x ih =>
      cases hx : x.sequence? with
      | none =>
          simp only [Planned, write_array_of_none hx]
          exact ⟨_, .noElements hx, performs_throw _⟩
      | some xs =>
          simp only [Planned, write_array hx, writeEach_eq_writeFields]
          have helements : ∀ t ∈ List.replicate xs.length e, ∀ y ∈ xs, Planned v t y := by
            intro t ht y hy
            obtain rfl := List.eq_of_mem_replicate ht
            exact ih xs hx y hy
          obtain ⟨rs, hasks, hperforms⟩ := performs_writeFields helements
          exact ⟨_, .array hx hasks, performs_call.bind (hperforms.inContainer _ _)⟩
  | dict k w x ih =>
      cases hx : x.entries? with
      | none =>
          simp only [Planned, write_dict_of_none hx]
          exact ⟨_, .noEntries hx, performs_throw _⟩
      | some es =>
          simp only [Planned, write_dict hx]
          obtain ⟨rs, hasks, hperforms⟩ := performs_writeEntries (ih es hx)
          exact ⟨_, .dict hx hasks, performs_call.bind (hperforms.inContainer _ _)⟩
  | struct fs x ih =>
      cases hx : x.items? with
      | none =>
          simp only [Planned, write_struct_of_none hx]
          exact ⟨_, .noFields hx, performs_throw _⟩
      | some xs =>
          simp only [Planned, write_struct hx]
          obtain ⟨rs, hasks, hperforms⟩ := performs_writeFields (ih xs hx)
          exact ⟨_, .struct hx hasks, hperforms.inContainer _ _⟩
  | variant x ih => exact planned_variant ih

/-- Appending a value according to a signature asks for these requests. -/
inductive AsksToAppend (v : Validator) (signature x : Value) : List Request → Prop
  | untyped {f : Fault} (h : typesFor v signature (arguments x) = .error f) :
      AsksToAppend v signature x [.stop f]
  | typed {ts : List SigType} {rs : List Request}
      (hts : typesFor v signature (arguments x) = .ok ts) (h : AsksAll v ts (arguments x) rs) :
      AsksToAppend v signature x rs

/-- Appending performs what it asks for, or gives up at one of the requests. -/
theorem performs_append (v : Validator) (signature x : Value) :
    ∃ rs, AsksToAppend v signature x rs ∧
      ∀ d, match (append v signature x).run.run d with
        | (.ok (), d') => (performAll rs []).run.run d = (.ok [], d')
        | (.error f, d') => GivesUp [] d f rs d' := by
  rw [append_eq]
  cases hts : typesFor v signature (arguments x) with
  | error f => exact ⟨_, .untyped hts, performs_throw f []⟩
  | ok ts =>
      obtain ⟨rs, hasks, hperforms⟩ : ∃ rs, AsksAll v ts (arguments x) rs ∧
          Performs (fun p => writeFields v ts p (arguments x)) rs :=
        performs_writeFields fun t _ y _ => planned t y
      exact ⟨rs, .typed hts hasks, hperforms []⟩

end Marshal

end DBusHost
