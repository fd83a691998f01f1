import DBusHost.Proofs.Marshal.Bracketing
import DBusHost.Proofs.Signature.Accepting
import DBusHost.Proofs.Signature.Guessing
import DBusHost.Proofs.Unmarshal.NormalForm

/-!
# What containers are opened for

The native library requires that an array or a variant is opened with the signature of its
contents, and that this is one complete type; the contents of an array may also be dict entries.
It does not check this for the caller.

The contents of arrays are spelled out from types that have been accepted, and a variant in a
variant is opened with a constant.  The innermost variant is opened with the text that is guessed
for its value, and only then is this text accepted or refused.  So whatever is appended, contents
that are not one complete type are always a guess for a part of the value, and appending fails
on them.
-/

namespace DBusHost

/-- The text is one complete type and keeps the limits of signatures. -/
def IsCompleteType (s : String) : Prop := isWellFormed s = true ∧ typeCount s = 1

instance : DecidablePred IsCompleteType := fun s =>
  inferInstanceAs (Decidable (isWellFormed s = true ∧ typeCount s = 1))

theorem isCompleteType_iff {s : String} :
    IsCompleteType s ↔ ∃ t : SigType, s = t.text ∧ SigType.Valid [t] := by
  constructor
  · rintro ⟨hwell, hone⟩
    obtain ⟨ts, rfl, hvalid⟩ := SigType.isWellFormed_iff.mp hwell
    rw [typeCount_listText hvalid.nonempty] at hone
    obtain ⟨t, rfl⟩ := List.length_eq_one_iff.mp hone
    exact ⟨t, SigType.listText_singleton t, hvalid⟩
  · rintro ⟨t, rfl, hvalid⟩
    rw [← SigType.listText_singleton]
    exact ⟨(SigType.isWellFormed_listText_iff hvalid.nonempty).mpr hvalid,
      typeCount_listText hvalid.nonempty⟩

/-- What the native library takes as the signature of the contents of a container. -/
inductive ContainerKind.Admits : ContainerKind → Option String → Prop
  | elements {s : String} (h : IsCompleteType s) : Admits .array (some s)
  | entries {k : BasicType} {w : SigType} (h : SigType.Valid [.dict k w]) :
      Admits .array (some (Marshal.entryText k w))
  | contents {s : String} (h : IsCompleteType s) : Admits .variant (some s)
  | fields : Admits .struct none
  | entry : Admits .dictEntry none

/-- The contents of a container are a guess for one of some values, and not what the native
library takes. -/
structure Misguessed (v : Validator) (among : Value → Prop) (k : ContainerKind)
    (signature : Option String) : Prop where
  variant : k = .variant
  guessed : ∃ y s, among y ∧ y.guessPlain v = .ok s ∧ signature = some s ∧ ¬ IsCompleteType s

theorem Misguessed.mono {v : Validator} {among among' : Value → Prop} {k : ContainerKind}
    {signature : Option String} (h : Misguessed v among k signature)
    (hsub : ∀ y, among y → among' y) : Misguessed v among' k signature := by
  obtain ⟨hk, y, s, hy, hguess⟩ := h
  exact ⟨hk, y, s, hsub y hy, hguess⟩

namespace Request

/-- Containers are opened with contents that the native library takes, or with a guess for one
of some values, and then the requests do not get through. -/
def OpenedFor (v : Validator) (among : Value → Prop) (rs : List Request) : Prop :=
  ∀ k signature, .enter k signature ∈ rs →
    k.Admits signature ∨ Misguessed v among k signature ∧ ∃ f, .stop f ∈ rs

variable {v : Validator} {among among' : Value → Prop} {rs rs' : List Request}

theorem OpenedFor.mono (h : OpenedFor v among rs) (hsub : ∀ y, among y → among' y) :
    OpenedFor v among' rs := by
  intro k signature hmem
  obtain hadmits | ⟨hguess, hstop⟩ := h k signature hmem
  · exact .inl hadmits
  · exact .inr ⟨hguess.mono hsub, hstop⟩

theorem OpenedFor.append (h : OpenedFor v among rs) (h' : OpenedFor v among rs') :
    OpenedFor v among (rs ++ rs') := by
  intro k signature hmem
  obtain hmem | hmem := List.mem_append.mp hmem
  · obtain hadmits | ⟨hguess, f, hstop⟩ := h k signature hmem
    · exact .inl hadmits
    · exact .inr ⟨hguess, f, List.mem_append_left _ hstop⟩
  · obtain hadmits | ⟨hguess, f, hstop⟩ := h' k signature hmem
    · exact .inl hadmits
    · exact .inr ⟨hguess, f, List.mem_append_right _ hstop⟩

/-- No request opens nothing. -/
theorem openedFor_nil : OpenedFor v among [] := by
  intro k signature hmem
  cases hmem

/-- A request that opens nothing. -/
theorem openedFor_one {r : Request} (h : ∀ k signature, r ≠ .enter k signature) :
    OpenedFor v among [r] := by
  intro k signature hmem
  exact absurd (List.mem_singleton.mp hmem).symm (h k signature)

theorem openedFor_spell : OpenedFor v among [.spell] := openedFor_one (by simp)

theorem mem_stop_bracket {k : ContainerKind} {signature : Option String} {f : Fault}
    (h : .stop f ∈ rs) : .stop f ∈ bracket k signature rs := by
  simp [bracket, h]

/-- A container is filled that is opened with what the native library takes, or with a guess on
which the filling stops. -/
theorem OpenedFor.bracket {k : ContainerKind} {signature : Option String}
    (h : OpenedFor v among rs)
    (hk : k.Admits signature ∨ Misguessed v among k signature ∧ ∃ f, .stop f ∈ rs) :
    OpenedFor v among (bracket k signature rs) := by
  intro k' signature' hmem
  have hcases : (k' = k ∧ signature' = signature) ∨ .enter k' signature' ∈ rs := by
    simpa [Request.bracket] using hmem
  have hopened : k'.Admits signature' ∨ Misguessed v among k' signature' ∧ ∃ f, .stop f ∈ rs := by
    obtain ⟨rfl, rfl⟩ | hmem := hcases
    · exact hk
    · exact h k' signature' hmem
  exact hopened.imp_right fun ⟨hguess, f, hstop⟩ => ⟨hguess, f, mem_stop_bracket hstop⟩

theorem isCompleteType_variant : IsCompleteType "v" := by decide

theorem OpenedFor.inVariants (h : OpenedFor v among rs) (n : Nat) :
    OpenedFor v among (inVariants n rs) := by
  induction n with
  | zero => exact h
  | succ n ih => exact ih.bracket (.inl (.contents isCompleteType_variant))

end Request

open Request

/-- Values that are not as many as the types they are written as stop the writing. -/
theorem AsksAll.exists_stop {v : Validator} {ts : List SigType} {xs : List Value}
    {rs : List Request} (h : AsksAll v ts xs rs) (hlength : ts.length ≠ xs.length) :
    ∃ f, .stop f ∈ rs := by
  induction xs generalizing ts rs with
  | nil =>
      cases h with
      | nil => exact absurd rfl hlength
      | tooFew => exact ⟨.tooFewValues, by simp⟩
  | cons x xs ih =>
      cases h with
      | tooMany => exact ⟨.tooManyValues, by simp⟩
      | cons _ hs =>
          obtain ⟨f, hf⟩ := ih hs (by simpa using hlength)
          exact ⟨f, List.mem_append_right _ hf⟩

section

variable {v : Validator}

/-- The types of an accepted text, and whether it is one of them. -/
theorem isCompleteType_iff_of_types (hv : v.Exact) {s : String} {ts : List SigType}
    (h : (Signature.ofText v s >>= Signature.types) = .ok ts) :
    SigType.Valid ts ∧ (IsCompleteType s ↔ ts.length = 1) := by
  obtain ⟨g, hg, -⟩ := eq_ok_of_bind h
  have hread := Marshal.readTypes?_of_ofText_types h
  have hvalid := Signature.valid_of_readTypes? hv hg hread
  obtain ⟨rfl, hfields⟩ := readTypes?_eq_some_iff.mp hread
  refine ⟨hvalid, ?_⟩
  rw [IsCompleteType, typeCount_listText hfields]
  exact and_iff_right ((SigType.isWellFormed_listText_iff hfields).mpr hvalid)

mutual

/-- The containers in a value are opened for what is spelled out from its type, for a variant, or
for what is guessed for a value in it. -/
theorem Asks.openedFor (hv : v.Exact) {t : SigType} {x : Value} {rs : List Request} :
    Asks v t x rs → SigType.Valid [t] → OpenedFor v (·.Inside x) rs
  | .basic _, _ | .noCell _, _ | .noElements _, _ | .noEntries _, _ | .noFields _, _ =>
      openedFor_one (by simp)
  | @Asks.array _ e _ xs _ hx h, ht => by
      have helements : ∀ t ∈ List.replicate xs.length e, SigType.Valid [t] := by
        intro t ht'
        rw [List.eq_of_mem_replicate ht']
        exact ht.element
      have hcontents := (h.openedFor hv helements).mono
        fun y ⟨z, hz, hy⟩ => Value.Inside.item hx hz hy
      have hadmits : ContainerKind.Admits .array (some e.text) :=
        .elements (isCompleteType_iff.mpr ⟨e, rfl, ht.element⟩)
      exact openedFor_spell.append (hcontents.bracket (.inl hadmits))
  | .dict hx h, ht => by
      have hcontents := (h.openedFor hv ht.entry.of_mem).mono
        fun y ⟨e, he, hy⟩ => hy.elim (Value.Inside.key hx he) (Value.Inside.entry hx he)
      exact openedFor_spell.append (hcontents.bracket (.inl (.entries ht)))
  | .struct hx h, ht => by
      have hcontents := (h.openedFor hv ht.fields.of_mem).mono
        fun y ⟨z, hz, hy⟩ => Value.Inside.item (Value.sequence?_eq_some_of_items? hx) hz hy
      exact hcontents.bracket (.inl .fields)
  | .unguessed _, _ => (openedFor_one (by simp)).inVariants _
  | @Asks.rejected _ x s f hguess _, _ => by
      refine (OpenedFor.bracket (openedFor_one (by simp)) ?_).inVariants _
      by_cases hs : IsCompleteType s
      · exact .inl (.contents hs)
      · exact .inr ⟨⟨rfl, x, s, .self, hguess, rfl, hs⟩, f, List.mem_singleton_self _⟩
  | @Asks.variant _ x s ts rs hguess hts h, _ => by
      obtain ⟨hvalid, hone⟩ := isCompleteType_iff_of_types hv hts
      have hcontents : OpenedFor v (·.Inside x) rs := (h.openedFor hv hvalid.of_mem).mono
        fun y ⟨z, hz, hy⟩ => List.mem_singleton.mp hz ▸ hy
      refine (hcontents.bracket ?_).inVariants _
      by_cases hs : IsCompleteType s
      · exact .inl (.contents hs)
      · exact .inr ⟨⟨rfl, x, s, .self, hguess, rfl, hs⟩, h.exists_stop (mt hone.mpr hs)⟩

theorem AsksAll.openedFor (hv : v.Exact) {ts : List SigType} {xs : List Value}
    {rs : List Request} : AsksAll v ts xs rs → (∀ t ∈ ts, SigType.Valid [t]) →
    OpenedFor v (fun y => ∃ x ∈ xs, y.Inside x) rs
  | .nil, _ => openedFor_nil
  | .tooFew, _ | .tooMany, _ => openedFor_one (by simp)
  | .cons h hs, hts => by
      have hfirst := h.openedFor hv (hts _ (by simp))
      have hrest := hs.openedFor hv fun t ht => hts t (by simp [ht])
      refine (hfirst.mono ?_).append (hrest.mono ?_)
      · exact fun y hy => ⟨_, List.mem_cons_self, hy⟩
      · exact fun y ⟨z, hz, hy⟩ => ⟨z, List.mem_cons_of_mem _ hz, hy⟩

theorem AsksEntries.openedFor (hv : v.Exact) {k : BasicType} {w : SigType}
    {es : List (Value × Value)} {rs : List Request} : AsksEntries v k w es rs →
    (∀ t ∈ [.basic k, w], SigType.Valid [t]) →
    OpenedFor v (fun y => ∃ e ∈ es, y.Inside e.1 ∨ y.Inside e.2) rs
  | .nil, _ => openedFor_nil
  | .cons h hs, hts => by
      have hfirst := (h.openedFor hv hts).bracket (.inl .entry)
      have hrest := hs.openedFor hv hts
      refine (hfirst.mono ?_).append (hrest.mono ?_)
      · rintro y ⟨z, hz, hy⟩
        obtain rfl | rfl := List.mem_pair.mp hz
        · exact ⟨_, List.mem_cons_self, .inl hy⟩
        · exact ⟨_, List.mem_cons_self, .inr hy⟩
      · exact fun y ⟨e, he, hy⟩ => ⟨e, List.mem_cons_of_mem _ he, hy⟩

end

end

/-! ## The calls that are made -/

namespace Request

open Writing

variable {r : Request} {rs : List Request} {stack stack' : List Nat} {d d' : Desk}

/-- A request opens a container only if it is one to open that container. -/
theorem opened_perform (r : Request) (stack : List Nat) (d : Desk) : ∃ made,
    ((r.perform stack).run.run d).2.calls = d.calls ++ made ∧
      ∀ p k signature n, .opened p k signature n ∈ made → r = .enter k signature := by
  cases r with
  | spell =>
      rw [perform, run_bind]
      obtain ⟨f, hrun | hrun⟩ := run_call .signatureText d <;> rw [hrun] <;>
        exact ⟨[], (List.append_nil _).symm, by simp⟩
  | basic type content =>
      rw [perform, run_bind]
      obtain ⟨f, hrun | hrun⟩ := run_appendBasic (.innermost stack) type content d <;> rw [hrun]
      · exact ⟨[], (List.append_nil _).symm, by simp⟩
      · exact ⟨_, rfl, by simp⟩
  | enter k signature =>
      rw [perform, run_bind]
      obtain ⟨f, hrun | hrun⟩ := run_openContainer (.innermost stack) k signature d <;> rw [hrun]
      · exact ⟨[], (List.append_nil _).symm, by simp⟩
      · refine ⟨_, rfl, fun p k' signature' n hmem => ?_⟩
        obtain ⟨-, rfl, rfl, -⟩ := PenCall.opened.inj (List.mem_singleton.mp hmem)
        rfl
  | leave =>
      cases stack with
      | nil => exact ⟨[], (List.append_nil _).symm, by simp⟩
      | cons n stack =>
          rw [perform, run_bind]
          obtain ⟨f, hrun | hrun⟩ := run_closeContainer n d <;> rw [hrun]
          · exact ⟨[], (List.append_nil _).symm, by simp⟩
          · exact ⟨_, rfl, by simp⟩
  | stop f => exact ⟨[], (List.append_nil _).symm, by simp⟩

/-- Performing requests keeps the calls that have been made, and opens only containers that are
asked for. -/
theorem opened_performAll (rs : List Request) (stack : List Nat) (d : Desk) : ∃ made,
    ((performAll rs stack).run.run d).2.calls = d.calls ++ made ∧
      ∀ p k signature n, .opened p k signature n ∈ made → .enter k signature ∈ rs := by
  induction rs generalizing stack d with
  | nil => exact ⟨[], (List.append_nil _).symm, by simp⟩
  | cons r rs ih =>
      obtain ⟨made, hmade, hfirst⟩ := opened_perform r stack d
      rcases hr : (r.perform stack).run.run d with ⟨f | stack₁, d₁⟩
      · rw [hr] at hmade
        rw [performAll, run_bind, hr]
        exact ⟨made, hmade, fun p k signature n hmem =>
          List.mem_cons.mpr (.inl (hfirst p k signature n hmem).symm)⟩
      · rw [hr] at hmade
        obtain ⟨made', hmade', hrest⟩ := ih stack₁ d₁
        rw [performAll_cons_ok hr, hmade', hmade, List.append_assoc]
        refine ⟨made ++ made', rfl, fun p k signature n hmem => List.mem_cons.mpr ?_⟩
        obtain hmem | hmem := List.mem_append.mp hmem
        · exact .inl (hfirst p k signature n hmem).symm
        · exact .inr (hrest p k signature n hmem)

/-- Requests that are all performed do not stop. -/
theorem stop_notMem_of_performAll (h : (performAll rs stack).run.run d = (.ok stack', d'))
    (f : Fault) : .stop f ∉ rs := by
  induction rs generalizing stack d with
  | nil => simp
  | cons r rs ih =>
      rcases hr : (r.perform stack).run.run d with ⟨g | stack₁, d₁⟩
      · rw [performAll, run_bind, hr] at h
        cases h
      · rw [performAll_cons_ok hr] at h
        intro hmem
        obtain rfl | hmem := List.mem_cons.mp hmem
        · cases hr
        · exact ih h hmem

/-- While no native routine fails, a container that is asked for is opened, and what comes after it
does not undo the call. -/
theorem performAll_enter (hd : d.failures = []) (k : ContainerKind) (signature : Option String)
    (rs : List Request) (stack : List Nat) : ∃ n stack₁ d₁,
    (performAll (.enter k signature :: rs) stack).run.run d =
        (performAll rs stack₁).run.run d₁ ∧
      d₁.failures = [] ∧ d₁.calls = d.calls ++ [.opened (.innermost stack) k signature n] := by
  have hcall : Failures.call .openContainer d.failures = (true, []) := by
    rw [hd, Failures.call_nil]
  have hopen : ((Request.enter k signature).perform stack).run.run d =
      (.ok (d.sheet.drafts.length :: stack), ⟨[], d.sheet.openDraft (.innermost stack) k signature,
        d.calls ++ [.opened (.innermost stack) k signature d.sheet.drafts.length]⟩) := by
    rw [perform, run_bind, openContainer, run_bind, run_call_eq hcall]
    rfl
  exact ⟨_, _, _, performAll_cons_ok hopen, rfl, rfl⟩

/-- While no native routine fails, the innermost variant is opened. -/
theorem opened_inVariants (hd : d.failures = []) (signature : Option String)
    (rs tail : List Request) (n : Nat) (stack : List Nat) : ∃ before p m,
    d.calls ++ before ++ [.opened p .variant signature m] <+:
      ((performAll (inVariants n (bracket .variant signature rs) ++ tail)
        stack).run.run d).2.calls := by
  induction n generalizing d tail stack with
  | zero =>
      obtain ⟨m, stack₁, d₁, hrun, -, hcalls⟩ :=
        performAll_enter hd .variant signature (rs ++ [.leave] ++ tail) stack
      obtain ⟨made, hmade, -⟩ := opened_performAll (rs ++ [.leave] ++ tail) stack₁ d₁
      refine ⟨[], .innermost stack, m, made, ?_⟩
      rw [List.append_nil, ← hcalls, ← hmade]
      exact congrArg (·.2.calls) hrun.symm
  | succ n ih =>
      obtain ⟨m, stack₁, d₁, hrun, hd₁, hcalls⟩ := performAll_enter hd .variant (some "v")
        (inVariants n (bracket .variant signature rs) ++ ([.leave] ++ tail)) stack
      obtain ⟨before, p, m', hprefix⟩ := ih hd₁ ([.leave] ++ tail) stack₁
      refine ⟨.opened (.innermost stack) .variant (some "v") m :: before, p, m', ?_⟩
      rw [← hrun, hcalls] at hprefix
      simpa [inVariants, bracket] using hprefix

end Request

namespace Marshal

variable {v : Validator}

/-- The types that values are written as are those of a value that has been accepted. -/
theorem signature_of_typesFor {signature : Value} {values : List Value} {ts : List SigType}
    (hs : signature.Accepted v) (h : typesFor v signature values = .ok ts) :
    ∃ s g, s.Accepted v ∧ Signature.ofValue v s = .ok g ∧ g.types = .ok ts := by
  cases signature with
  | null =>
      obtain ⟨s, hguess, hrest⟩ := eq_ok_of_bind h
      obtain ⟨g, hg, hts⟩ := eq_ok_of_bind hrest
      have haccepted : s.Accepted v := by
        cases hall : Value.guessAll v values with
        | error f => simp [hall] at hguess
        | ok text =>
            obtain rfl : .text text = s := by simpa [hall] using hguess
            exact Value.accepted_of_signatures_eq_nil rfl
      exact ⟨s, g, haccepted, hg, hts⟩
  | _ =>
      obtain ⟨s, hpure, hrest⟩ := eq_ok_of_bind h
      obtain ⟨g, hg, hts⟩ := eq_ok_of_bind hrest
      obtain rfl := Except.ok.inj hpure
      exact ⟨_, g, hs, hg, hts⟩

theorem valid_of_typesFor (hv : v.Exact) {signature : Value} {values : List Value}
    {ts : List SigType} (hs : signature.Accepted v) (h : typesFor v signature values = .ok ts) :
    SigType.Valid ts := by
  obtain ⟨s, g, hs', hg, hts⟩ := signature_of_typesFor hs h
  have haccepted := Signature.accepted_of_ofValue hs' hg
  have hcheck : Signature.ofText v g.text = .ok g :=
    Signature.check_eq_ok_iff.mpr ⟨haccepted.1, haccepted.2, rfl⟩
  exact Signature.valid_of_readTypes? hv hcheck (Signature.readTypes?_of_types hcheck hts)

/-- What is in the values to be written is in the value that is appended. -/
theorem inside_of_mem_arguments {x y z : Value} (hz : z ∈ arguments x) (hy : y.Inside z) :
    y.Inside x := by
  cases hx : x.items? with
  | none =>
      rw [arguments, hx, Option.getD_none, List.mem_singleton] at hz
      exact hz ▸ hy
  | some xs =>
      rw [arguments, hx, Option.getD_some] at hz
      exact .item (Value.sequence?_eq_some_of_items? hx) hz hy

/-- What appending asks for opens containers for what the native library takes, or for a guess for
a value in the one that is appended. -/
theorem AsksToAppend.openedFor (hv : v.Exact) {signature x : Value} {rs : List Request}
    (h : AsksToAppend v signature x rs) (hs : signature.Accepted v) :
    OpenedFor v (·.Inside x) rs := by
  cases h with
  | untyped => exact openedFor_one (by simp)
  | typed hts h =>
      refine (h.openedFor hv (valid_of_typesFor hv hs hts).of_mem).mono ?_
      exact fun y ⟨z, hz, hy⟩ => inside_of_mem_arguments hz hy

/-- The calls that appending makes are those of performing what it asks for, and behind them those
that abandon containers. -/
theorem calls_append (v : Validator) (signature x : Value) (d : Desk) : ∃ rs abandoned,
    AsksToAppend v signature x rs ∧
      ((append v signature x).run.run d).2.calls =
        ((Request.performAll rs []).run.run d).2.calls ++ List.map .abandoned abandoned ∧
      (((append v signature x).run.run d).1 = .ok () → ∀ f, .stop f ∉ rs) := by
  obtain ⟨rs, hasks, hperforms⟩ := performs_append v signature x
  have hrun := hperforms d
  rcases happend : (append v signature x).run.run d with ⟨f | _, d'⟩
  · rw [happend] at hrun
    cases hrun with
    | @intro done rest inner next _ _ hdone hnext =>
        refine ⟨_, next.unwinds inner, hasks, ?_, by simp⟩
        rw [Request.performAll_stops hdone hnext]
  · rw [happend] at hrun
    refine ⟨rs, [], hasks, ?_, fun _ => Request.stop_notMem_of_performAll hrun⟩
    rw [hrun, List.map_nil, List.append_nil]

/-- While no native routine fails, a value that is appended as a variant is put into one that is
opened with the text that is guessed for the value. -/
theorem opened_append_variant (hv : v.Exact) {x : Value} {s : String}
    (h : x.guessPlain v = .ok s) {d : Desk} (hd : d.failures = []) : ∃ calls p n,
    ((append v (.text "v") (.list [x])).run.run d).2.calls = d.calls ++ calls ∧
      PenCall.opened p .variant (some s) n ∈ calls := by
  have htext : SigType.variant.text = "v" := by decide
  have haccepted : Signature.ofValue v (.text "v") = .ok ⟨"v"⟩ := by
    rw [Signature.ofValue, ← htext]
    exact Signature.ofText_text hv SigType.valid_variant
  have htypes : typesFor v (.text "v") [x] = .ok [.variant] :=
    typesFor_eq_ok haccepted rfl _
  obtain ⟨rs, abandoned, hasks, hcalls, -⟩ := calls_append v (.text "v") (.list [x]) d
  obtain ⟨inner, rfl⟩ : ∃ inner,
      rs = inVariants (x.level - 1) (bracket .variant (some s) inner) ++ [] := by
    cases hasks with
    | untyped hts => cases htypes.symm.trans hts
    | typed hts hall =>
        obtain rfl := Except.ok.inj (htypes.symm.trans hts)
        cases hall with
        | cons hx hnil =>
            cases hnil
            cases hx with
            | unguessed hs => cases h.symm.trans hs
            | rejected hs _ =>
                obtain rfl := Except.ok.inj (h.symm.trans hs)
                exact ⟨_, rfl⟩
            | variant hs _ _ =>
                obtain rfl := Except.ok.inj (h.symm.trans hs)
                exact ⟨_, rfl⟩
  obtain ⟨before, p, n, made, hmade⟩ :=
    Request.opened_inVariants hd (some s) inner [] (x.level - 1) []
  refine ⟨before ++ [.opened p .variant (some s) n] ++ (made ++ List.map .abandoned abandoned),
    p, n, ?_, by simp⟩
  rw [hcalls, ← hmade]
  simp only [List.append_assoc]

/-- Whatever is appended and whatever fails, arrays are opened with one complete type or with dict
entries, and variants with one complete type, except that a variant can be opened with the text
that is guessed for a value in the one that is appended, when that is not one complete type.
Appending fails then.

Only these texts are an exception, and each of them is: while no native routine fails, a value that
is appended as a variant is put into one that is opened with its guess.  A guess is one complete
type if and only if it keeps the rules and limits of signatures, and array marks stand in it
directly in front of no carried signature or in front of one that is one complete type. -/
theorem append_opens (hv : v.Exact) :
    (∀ signature x, signature.Accepted v → ∀ d, ∃ calls,
      ((append v signature x).run.run d).2.calls = d.calls ++ calls ∧
      ∀ p k contents n, PenCall.opened p k contents n ∈ calls →
        k.Admits contents ∨
        ((append v signature x).run.run d).1 ≠ .ok () ∧ Misguessed v (·.Inside x) k contents) ∧
    (∀ x s, Value.guessPlain v x = .ok s → ∀ d : Desk, d.failures = [] → ∃ calls p n,
      ((append v (.text "v") (.list [x])).run.run d).2.calls = d.calls ++ calls ∧
        PenCall.opened p .variant (some s) n ∈ calls) ∧
    ∀ x s, Value.Accepted v x → Value.guessPlain v x = .ok s →
      (IsCompleteType s ↔
        isWellFormed s = true ∧ ∀ g ∈ Value.elementSignature? x, typeCount g.text = 1) := by
  refine ⟨?_, fun x s h d hd => opened_append_variant hv h hd, ?_⟩
  · intro signature x hs d
    obtain ⟨rs, abandoned, hasks, hcalls, hstops⟩ := calls_append v signature x d
    obtain ⟨made, hmade, henter⟩ := Request.opened_performAll rs [] d
    refine ⟨made ++ List.map .abandoned abandoned, ?_, ?_⟩
    · rw [hcalls, hmade, List.append_assoc]
    intro p k contents n hmem
    have hmem' : .opened p k contents n ∈ made := by simpa using hmem
    have hopened := hasks.openedFor hv hs k contents (henter p k contents n hmem')
    refine hopened.imp_right fun ⟨hguess, f, hstop⟩ => ⟨fun hok => ?_, hguess⟩
    exact hstops hok f hstop
  · intro x s hx hguess
    refine and_congr_right fun hwell => ?_
    obtain ⟨ts, rfl, hvalid⟩ := SigType.isWellFormed_iff.mp hwell
    rw [Value.typeCount_guessPlain hv x hx hguess (isTypes_listText hvalid.nonempty)]
    cases x.elementSignature? <;> simp

/-- An array that carries two types is put into a variant that is opened with two types.  They are
guessed for the array itself; for one that carries one type, one type is guessed. -/
theorem append_opens_array : ∃ x calls, x = Value.list [.array [.int 1] ⟨some ⟨"ii"⟩, .count 0⟩] ∧
    ((append .ofGrammar (.text "v") x).run.run ⟨[], .ofBody [], []⟩).2.calls = calls ∧
    PenCall.opened .body .variant (some "aii") 0 ∈ calls ∧
    ¬ ContainerKind.Admits .variant (some "aii") ∧
    Misguessed .ofGrammar (·.Inside x) .variant (some "aii") ∧
    IsCompleteType "ai" := by
  obtain ⟨hopens, -, hguess⟩ := append_opens Validator.exact_ofGrammar
  have htwo : ¬ IsCompleteType "aii" := by
    rw [hguess (.array [.int 1] ⟨some ⟨"ii"⟩, .count 0⟩) "aii" (by decide) rfl]
    decide
  have hone : IsCompleteType "ai" := by
    rw [hguess (.array [.int 1] ⟨some ⟨"i"⟩, .count 0⟩) "ai" (by decide) rfl]
    decide
  have hrefused : ¬ ContainerKind.Admits .variant (some "aii") := by
    rintro ⟨⟩
    exact htwo ‹_›
  obtain ⟨calls, hcalls, hopened⟩ := hopens (.text "v")
    (.list [.array [.int 1] ⟨some ⟨"ii"⟩, .count 0⟩]) (by decide) ⟨[], .ofBody [], []⟩
  have hmem : PenCall.opened .body .variant (some "aii") 0 ∈ calls := by
    have hmade : PenCall.opened .body .variant (some "aii") 0 ∈
        ((append .ofGrammar (.text "v")
          (.list [.array [.int 1] ⟨some ⟨"ii"⟩, .count 0⟩])).run.run
          ⟨[], .ofBody [], []⟩).2.calls := by decide +kernel
    simpa [hcalls] using hmade
  obtain hadmits | ⟨-, hmisguessed⟩ := hopened _ _ _ _ hmem
  · exact absurd hadmits hrefused
  · exact ⟨_, calls, rfl, by simpa using hcalls, hmem, hrefused, hmisguessed, hone⟩

end Marshal

end DBusHost
