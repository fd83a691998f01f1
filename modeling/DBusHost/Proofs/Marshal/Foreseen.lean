import DBusHost.Proofs.Marshal.Asking
import DBusHost.Proofs.Marshal.Following
import DBusHost.Proofs.Value.Windows

/-!
# The faults that marshalling ends in

A value may not fit its type, a signature may be refused, and memory may run out.  No other fault
ends marshalling: what it asks for stops with a fault of these kinds only, and of the faults of
native routines it reports exhausted memory.  So the branches for a code that is no type, for a
table without an entry, for a value behind the last one, for an iterator that is used against its
mode and for a loop that ends outside of a loop are dead, whatever is appended and whatever fails.
-/

namespace DBusHost

/-- The kinds of fault that a caller of marshalling has to expect. -/
def FaultKind.foreseen : List FaultKind :=
  [type, value, busInvalidSignature, undecodable, overflow, busNoMemory]

def Fault.Foreseen (f : Fault) : Prop := f.kind ∈ FaultKind.foreseen

instance (f : Fault) : Decidable f.Foreseen :=
  inferInstanceAs (Decidable (f.kind ∈ FaultKind.foreseen))

/-- If the computation fails, it is with a fault that is foreseen. -/
def Foresees {α : Type} (e : Except Fault α) : Prop := ∀ f, e = .error f → f.Foreseen

section

variable {α β : Type}

theorem foresees_ok (a : α) : Foresees (.ok a) := by
  intro f hf
  cases hf

theorem foresees_fault {f : Fault} (h : f.Foreseen) : Foresees (.error f : Except Fault α) := by
  intro g hg
  obtain rfl := Except.error.inj hg
  exact h

/-- A fault of a foreseen kind, whatever else it says. -/
theorem foresees_error (k : FaultKind) (hk : k ∈ FaultKind.foreseen) {f : Fault}
    (hf : f.kind = k) : Foresees (.error f : Except Fault α) :=
  foresees_fault (by rwa [Fault.Foreseen, hf])

theorem Foresees.bind {e : Except Fault α} {k : α → Except Fault β} (h : Foresees e)
    (hk : ∀ a, e = .ok a → Foresees (k a)) : Foresees (e >>= k) := by
  cases e with
  | ok a => exact hk a rfl
  | error f => exact foresees_fault (h f rfl)

theorem Foresees.map {e : Except Fault α} (h : Foresees e) (g : α → β) : Foresees (g <$> e) := by
  cases e with
  | ok a => exact foresees_ok _
  | error f => exact foresees_fault (h f rfl)

end

/-! ## Signatures and guesses -/

variable {v : Validator}

theorem Signature.foresees_check (v : Validator) (shown s : String) :
    Foresees (check v shown s) := by
  unfold check
  split
  · exact foresees_error .busInvalidSignature (by decide) rfl
  · split
    · exact foresees_ok _
    · exact foresees_error .busInvalidSignature (by decide) rfl

theorem Signature.foresees_ofValue (v : Validator) (x : Value) : Foresees (ofValue v x) := by
  have hbytes : ∀ bs, Foresees (ofValue.ofBytes v bs) := by
    intro bs
    unfold ofValue.ofBytes
    split
    · exact foresees_check _ _ _
    · exact foresees_error .undecodable (by decide) rfl
  cases x with
  | signature g => exact foresees_ok g
  | text | path => exact foresees_check _ _ _
  | bytes bs | buffer bs => exact hbytes bs
  | _ => exact foresees_error .type (by decide) rfl

/-- An accepted signature has types. -/
theorem Signature.foresees_types (hv : v.Exact) {g : Signature} (hg : g.Accepted v) :
    Foresees g.types := by
  obtain ⟨ts, -, -, htypes⟩ := hg.exists_types hv
  rw [htypes]
  exact foresees_ok ts

theorem Signature.foresees_types_of_text (hv : v.Exact) (s : String) :
    Foresees (ofText v s >>= types) :=
  (foresees_check v _ s).bind fun _ hg => foresees_types hv (accepted_of_check hg).1

theorem Signature.foresees_types_of_value (hv : v.Exact) {x : Value} (hx : x.Accepted v) :
    Foresees (ofValue v x >>= types) :=
  (foresees_ofValue v x).bind fun _ hg => foresees_types hv (accepted_of_ofValue hx hg)

namespace Value

theorem foresees_guessLeaf (x : Value) : Foresees x.guessLeaf := by
  cases x <;> first | exact foresees_ok _ | exact foresees_error .type (by decide) rfl

theorem foresees_guessAt {plain : Except Fault String} (h : Foresees plain) (level : Nat) :
    Foresees (guessAt v level plain) := by
  unfold guessAt
  split
  · exact Signature.foresees_check _ _ _
  · cases plain with
    | ok s => exact Signature.foresees_check _ _ _
    | error f => exact foresees_fault (h f rfl)

mutual

/-- A guess fails because of a value that has no type or a signature that is refused. -/
theorem foresees_guessPlain (v : Validator) : (x : Value) → Foresees (x.guessPlain v)
  | tuple xs => foresees_guessFields v xs
  | struct xs t => by
      rw [guessPlain]
      split
      · exact foresees_ok _
      · exact foresees_guessFields v xs
  | list xs => foresees_guessElement v xs
  | array xs t => by
      rw [guessPlain]
      split
      · exact foresees_ok _
      · exact foresees_guessElement v xs
  | map es => foresees_guessEntry v es
  | dictionary es t => by
      rw [guessPlain]
      split
      · exact foresees_ok _
      · exact foresees_guessEntry v es
  | null | bool _ | int _ | double _ | text _ | path _ | signature _ | descriptor _ | bytes _
  | buffer _ | object _ => by simpa only [guessPlain] using foresees_guessLeaf _

theorem foresees_guessFields (v : Validator) : (xs : List Value) → Foresees (guessFields v xs)
  | [] => foresees_error .value (by decide) rfl
  | x :: xs =>
      (foresees_guessAt (foresees_guessPlain v x) x.level).bind fun _ _ =>
        (foresees_guessEach v xs).bind fun _ _ => foresees_ok _

theorem foresees_guessEach (v : Validator) : (xs : List Value) → Foresees (guessEach v xs)
  | [] => foresees_ok _
  | x :: xs =>
      (foresees_guessAt (foresees_guessPlain v x) x.level).bind fun _ _ =>
        (foresees_guessEach v xs).bind fun _ _ => foresees_ok _

theorem foresees_guessElement (v : Validator) : (xs : List Value) → Foresees (guessElement v xs)
  | [] => foresees_error .value (by decide) rfl
  | x :: _ => (foresees_guessAt (foresees_guessPlain v x) x.level).bind fun _ _ => foresees_ok _

theorem foresees_guessEntry (v : Validator) : (es : List (Value × Value)) →
    Foresees (guessEntry v es)
  | [] => foresees_error .value (by decide) rfl
  | (k, x) :: _ =>
      (foresees_guessAt (foresees_guessPlain v k) k.level).bind fun _ _ =>
        (foresees_guessAt (foresees_guessPlain v x) x.level).bind fun _ _ => foresees_ok _

end

/-! ## Cells -/

theorem foresees_toDouble (x : Value) : Foresees x.toDouble := by
  unfold toDouble
  split
  · exact foresees_ok _
  · split
    · split
      · exact foresees_ok _
      · exact foresees_error .overflow (by decide) rfl
    · dsimp only
      split
      · exact foresees_error .type (by decide) rfl
      · exact foresees_error .value (by decide) rfl
      · exact foresees_ok _

/-- An integer type refuses what is no integer or is out of its window, and nothing else. -/
theorem foresees_checkInteger {b : BasicType} {w : IntWindow} (hw : b.window? = some w)
    (x : Value) : Foresees (checkInteger w x) := by
  cases hx : x.integer? with
  | none =>
      have hcheck : checkInteger w x = .error (.integerExpected x.kindName) := by
        simp only [checkInteger, checkWindow, hx]
      rw [hcheck]
      exact foresees_error .type (by decide) rfl
  | some i =>
      rw [checkInteger_eq (BasicType.bits_of_window? hw) hx]
      split
      · exact foresees_ok i
      · exact foresees_error .value (by decide) rfl

end Value

theorem BasicType.foresees_cell (v : Validator) (b : BasicType) (x : Value) :
    Foresees (b.cell v x) := by
  unfold cell
  split
  · next w hw => exact (Value.foresees_checkInteger hw x).bind fun _ _ => foresees_ok _
  · split
    · exact foresees_ok _
    · exact (Value.foresees_toDouble x).map _
    · exact (Signature.foresees_ofValue v x).bind fun _ _ => foresees_ok _
    · split
      · exact foresees_ok _
      · exact foresees_error .type (by decide) rfl

/-! ## Requests -/

namespace Request

open Writing

/-- The requests stop with foreseen faults only. -/
def StopForeseen (rs : List Request) : Prop := ∀ f, .stop f ∈ rs → f.Foreseen

variable {rs rs' : List Request}

theorem stopForeseen_of_forall_ne (h : ∀ f, .stop f ∉ rs) : StopForeseen rs :=
  fun f hf => absurd hf (h f)

theorem stopForeseen_stop {f : Fault} (h : f.Foreseen) : StopForeseen [.stop f] := by
  intro g hg
  obtain rfl : g = f := by simpa using hg
  exact h

theorem StopForeseen.append (h : StopForeseen rs) (h' : StopForeseen rs') :
    StopForeseen (rs ++ rs') := by
  intro f hf
  exact (List.mem_append.mp hf).elim (h f) (h' f)

theorem StopForeseen.bracket (h : StopForeseen rs) (k : ContainerKind)
    (signature : Option String) : StopForeseen (bracket k signature rs) := by
  intro f hf
  exact h f (by simpa [Request.bracket] using hf)

theorem StopForeseen.spell (h : StopForeseen rs) : StopForeseen (.spell :: rs) := by
  intro f hf
  exact h f (by simpa using hf)

theorem StopForeseen.inVariants (h : StopForeseen rs) (n : Nat) :
    StopForeseen (inVariants n rs) := by
  induction n with
  | zero => exact h
  | succ n ih => exact ih.bracket .variant (some "v")

/-- A request fails with exhausted memory, or it is one to stop. -/
theorem error_perform {r : Request} {stack : List Nat} {d d' : Desk} {f : Fault}
    (h : (r.perform stack).run.run d = (.error f, d')) :
    (∃ routine, f = .noMemory routine) ∨ r = .stop f := by
  cases r with
  | spell =>
      obtain ⟨_, hrun | hrun⟩ := run_call .signatureText d <;> rw [perform, run_bind, hrun] at h
      · cases h
        exact .inl ⟨_, rfl⟩
      · cases h
  | basic type content =>
      obtain ⟨_, hrun | hrun⟩ := run_appendBasic (.innermost stack) type content d <;>
        rw [perform, run_bind, hrun] at h
      · cases h
        exact .inl ⟨_, rfl⟩
      · cases h
  | enter k signature =>
      obtain ⟨_, hrun | hrun⟩ := run_openContainer (.innermost stack) k signature d <;>
        rw [perform, run_bind, hrun] at h
      · cases h
        exact .inl ⟨_, rfl⟩
      · cases h
  | leave =>
      cases stack with
      | nil => cases h
      | cons n stack =>
          obtain ⟨_, hrun | hrun⟩ := run_closeContainer n d <;> rw [perform, run_bind, hrun] at h
          · cases h
            exact .inl ⟨_, rfl⟩
          · cases h
  | stop g =>
      cases h
      exact .inr rfl

/-- Requests that stop with foreseen faults only are given up with one. -/
theorem GivesUp.foreseen {d d' : Desk} {f : Fault} {stack : List Nat}
    (h : GivesUp stack d f rs d') (hrs : StopForeseen rs) : f.Foreseen := by
  cases h with
  | intro done rest inner hdone hnext hinner =>
      obtain ⟨routine, rfl⟩ | rfl := error_perform hnext
      · exact (by simp [FaultKind.foreseen] : .busNoMemory ∈ FaultKind.foreseen)
      · exact hrs f (by simp)

end Request

open Request

mutual

/-- Writing a value as a type stops with foreseen faults only. -/
theorem Asks.stopForeseen (hv : v.Exact) {t : SigType} {x : Value} {rs : List Request} :
    Asks v t x rs → StopForeseen rs
  | .basic _ => stopForeseen_of_forall_ne (by simp)
  | .noCell h => stopForeseen_stop (BasicType.foresees_cell v _ x _ h)
  | .array _ h => ((h.stopForeseen hv).bracket _ _).spell
  | .dict _ h => ((h.stopForeseen hv).bracket _ _).spell
  | .struct _ h => (h.stopForeseen hv).bracket _ _
  | .noElements _ | .noEntries _ | .noFields _ => stopForeseen_stop (by decide)
  | .unguessed h => (stopForeseen_stop (Value.foresees_guessPlain v x _ h)).inVariants _
  | .rejected _ h =>
      ((stopForeseen_stop (Signature.foresees_types_of_text hv _ _ h)).bracket _ _).inVariants _
  | .variant _ _ h => ((h.stopForeseen hv).bracket _ _).inVariants _

theorem AsksAll.stopForeseen (hv : v.Exact) {ts : List SigType} {xs : List Value}
    {rs : List Request} : AsksAll v ts xs rs → StopForeseen rs
  | .nil => stopForeseen_of_forall_ne (by simp)
  | .tooFew | .tooMany => stopForeseen_stop (by decide)
  | .cons h hs => (h.stopForeseen hv).append (hs.stopForeseen hv)

theorem AsksEntries.stopForeseen (hv : v.Exact) {k : BasicType} {w : SigType}
    {es : List (Value × Value)} {rs : List Request} : AsksEntries v k w es rs → StopForeseen rs
  | .nil => stopForeseen_of_forall_ne (by simp)
  | .cons h hs => ((h.stopForeseen hv).bracket _ _).append (hs.stopForeseen hv)

end

/-! ## Appending -/

namespace Marshal

theorem foresees_typesFor (hv : v.Exact) {signature : Value} (hs : signature.Accepted v)
    (xs : List Value) : Foresees (typesFor v signature xs) := by
  cases signature with
  | null =>
      have hguess : Foresees (Value.text <$> Value.guessAll v xs) :=
        (Value.foresees_guessEach v xs).map _
      refine hguess.bind fun s h => Signature.foresees_types_of_value hv ?_
      obtain ⟨text, -, rfl⟩ : ∃ text, Value.guessAll v xs = .ok text ∧ .text text = s := by
        cases hall : Value.guessAll v xs with
        | error f => simp [hall] at h
        | ok text => exact ⟨text, rfl, by simpa [hall] using h⟩
      exact Value.accepted_of_signatures_eq_nil rfl
  | _ => exact Signature.foresees_types_of_value hv hs

theorem AsksToAppend.stopForeseen (hv : v.Exact) {signature x : Value}
    (hs : signature.Accepted v) {rs : List Request} :
    AsksToAppend v signature x rs → StopForeseen rs
  | .untyped h => stopForeseen_stop (foresees_typesFor hv hs _ _ h)
  | .typed _ h => h.stopForeseen hv

end Marshal

/-- While a validator accepts the well-formed signatures and no others, there is a depth for every
signature and value from which on marshalling along a cursor comes to an end, whichever native
routines fail; and it has succeeded then, or has failed with a fault that is foreseen. -/
theorem Guided.append_ends_foreseen {v : Validator} (hv : v.Exact) {signature : Value}
    (hs : signature.Accepted v) (x : Value) : ∃ n, ∀ depth, n ≤ depth → ∀ d, ∃ outcome d',
      (append depth v signature x).run.run d = some (outcome, d') ∧
      (Marshal.append v signature x).run.run d = (outcome, d') ∧
      ∀ f, outcome = .error f → f.kind ∈ FaultKind.foreseen := by
  obtain ⟨rs, hasks, hperforms⟩ := Marshal.performs_append v signature x
  obtain ⟨n, hn⟩ := append_eq hv hs x
  refine ⟨n, fun depth hdepth d => ?_⟩
  have hrun := hperforms d
  rcases hmarshal : (Marshal.append v signature x).run.run d with ⟨outcome, d'⟩
  refine ⟨outcome, d', ?_, rfl, ?_⟩
  · rw [hn depth hdepth]
    exact congrArg some hmarshal
  · rintro f rfl
    rw [hmarshal] at hrun
    exact hrun.foreseen (hasks.stopForeseen hv hs)

/-- A variant in a dict entry in an array cannot be opened for lack of memory.  The entry and the
array are abandoned, and that is reported. -/
theorem Guided.append_ends_foreseen_variant : ∃ n, ∀ depth, n ≤ depth → ∃ f d',
    (append depth .ofGrammar (.text "a\x7bsv\x7d") (.list [.map [(.text "k", .int 1)]])).run.run
        ⟨[(.openContainer, 3)], .ofBody [], []⟩ = some (.error f, d') ∧
      f = .noMemory .openContainer ∧ f.kind ∈ FaultKind.foreseen ∧
      d'.calls = [.opened .body .array (some "\x7bsv\x7d") 0, .opened (.draft 0) .dictEntry none 1,
        .basic (.draft 1) 's' (.string "k"), .abandoned 1, .abandoned 0] := by
  obtain ⟨n, hn⟩ := @append_ends_foreseen _ Validator.exact_ofGrammar (.text "a\x7bsv\x7d")
    (Value.accepted_of_signatures_eq_nil rfl) (.list [.map [(.text "k", .int 1)]])
  refine ⟨n, fun depth hdepth => ?_⟩
  obtain ⟨outcome, d', hrun, hmarshal, hforeseen⟩ :=
    hn depth hdepth ⟨[(.openContainer, 3)], .ofBody [], []⟩
  obtain ⟨f, hf, hmemory⟩ : ∃ f, outcome = .error f ∧ f = .noMemory .openContainer := by
    rw [← show _ = outcome from congrArg Prod.fst hmarshal]
    exact ⟨_, rfl, rfl⟩
  refine ⟨f, d', hf ▸ hrun, hmemory, hforeseen f hf, ?_⟩
  rw [← show _ = d' from congrArg Prod.snd hmarshal]
  decide +kernel

end DBusHost
