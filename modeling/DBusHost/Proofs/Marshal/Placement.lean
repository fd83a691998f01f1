import DBusHost.Proofs.Marshal.Acceptance

/-!
# Where arguments are put

A place is open if it is the body or a draft that was not closed.  Whatever is written at
an open place, with or without success, puts items behind those of that place, may start
drafts behind all others, and changes nothing else.  A container that could not be filled
or closed leaves no item at all.

`Adds p w Q` says that the writing `w` puts items at the place `p` in this way, and that
`Q` relates its result and these items.
-/

namespace DBusHost

namespace Sheet

/-- The place is the body or a draft that was not closed. -/
def IsOpen (s : Sheet) : Place → Prop
  | .body => True
  | .draft n => ∃ d, s.drafts[n]? = some d ∧ d.standing = []

/-- The second sheet has what the first one has, with items put behind those of a place. -/
structure Grown (s : Sheet) (p : Place) (items : List Item) (s' : Sheet) : Prop where
  body : s'.body = if p = .body then s.body ++ items else s.body
  drafts : ∀ n d, s.drafts[n]? = some d →
    s'.drafts[n]? = some (if p = .draft n then { d with items := d.items ++ items } else d)

variable {s s' s'' : Sheet} {p q : Place} {items rest : List Item}

theorem grown_self (s : Sheet) (p : Place) : Grown s p [] s :=
  ⟨by simp, fun n d hd => by simp [hd]⟩

theorem Grown.trans (h : Grown s p items s') (h' : Grown s' p rest s'') :
    Grown s p (items ++ rest) s'' := by
  constructor
  · rw [h'.body, h.body]
    split <;> simp
  · intro n d hd
    rw [h'.drafts n _ (h.drafts n d hd)]
    split <;> simp

/-- Putting items at a place closes none. -/
theorem IsOpen.grown (h : s.IsOpen p) (hs : Grown s q items s') : s'.IsOpen p := by
  cases p with
  | body => trivial
  | draft n =>
      obtain ⟨d, hd, hstanding⟩ := h
      refine ⟨_, hs.drafts n d hd, ?_⟩
      split
      · exact hstanding
      · exact hstanding

theorem grown_modifyItems (s : Sheet) (p : Place) (items : List Item) :
    Grown s p items (s.modifyItems p (· ++ items)) := by
  cases p with
  | body => exact ⟨rfl, fun n d hd => by simpa [modifyItems] using hd⟩
  | draft m =>
      refine ⟨rfl, fun n d hd => ?_⟩
      by_cases hm : m = n
      · subst hm
        simp [modifyItems, hd]
      · simp [modifyItems, hm, hd]

/-- An item is put at an open place and shows nowhere else. -/
theorem IsOpen.grown_add (h : s.IsOpen p) (item : Item) :
    Grown s p [item] (s.add p item) := by
  have hmodify := grown_modifyItems s p [item]
  cases p with
  | body => exact hmodify
  | draft n =>
      obtain ⟨d, hd, hstanding⟩ := h.grown hmodify
      rw [add, renew_of_standing_eq_nil hd hstanding]
      exact hmodify

theorem isOpen_openDraft (s : Sheet) (p : Place) (k : ContainerKind)
    (signature : Option String) :
    (s.openDraft p k signature).IsOpen (.draft s.drafts.length) :=
  ⟨⟨p, k, signature, [], []⟩, by simp [openDraft], rfl⟩

/-- What is put into a new draft does not show outside. -/
theorem Grown.outside {k : ContainerKind} {signature : Option String}
    (h : Grown (s.openDraft q k signature) (.draft s.drafts.length) items s') :
    Grown s p [] s' := by
  constructor
  · simpa [openDraft] using h.body
  · intro n d hd
    have hlt : n < s.drafts.length := (List.getElem?_eq_some_iff.mp hd).1
    have hold : (s.openDraft q k signature).drafts[n]? = some d := by
      simpa [openDraft, List.getElem?_append_left hlt] using hd
    rw [h.drafts n d hold, if_neg (by simp; omega)]
    simp

theorem Grown.set {n : Nat} (h : Grown s p items s') (hn : s.drafts.length ≤ n) (d : Draft) :
    Grown s p items { s' with drafts := s'.drafts.set n d } := by
  refine ⟨h.body, fun m e he => ?_⟩
  have hlt : m < s.drafts.length := (List.getElem?_eq_some_iff.mp he).1
  rw [List.getElem?_set_ne (by omega)]
  exact h.drafts m e he

/-- Closing a draft puts one item where it was opened. -/
theorem Grown.close {k : ContainerKind} {signature : Option String} (hp : s.IsOpen p)
    (h : Grown (s.openDraft p k signature) (.draft s.drafts.length) items s') :
    Grown s p [Draft.item ⟨p, k, signature, items, []⟩] (s'.close s.drafts.length) := by
  have hdraft : s'.drafts[s.drafts.length]? = some ⟨p, k, signature, items, []⟩ := by
    have hnew := h.drafts s.drafts.length ⟨p, k, signature, [], []⟩ (by simp [openDraft])
    simpa using hnew
  simp only [Sheet.close, hdraft]
  have houtside := (h.outside (p := p)).set (Nat.le_refl _)
    ⟨p, k, signature, items, [] ++ [(s'.itemsAt p).length]⟩
  exact houtside.trans ((hp.grown houtside).grown_add _)

end Sheet

namespace Writing

variable {α β : Type} {p : Place} {w : Writing α} {Q R : Except Fault α → List Item → Prop}

/-- The writing puts items at a place, if that is open, and `Q` relates its result and the
items. -/
def Adds (p : Place) (w : Writing α) (Q : Except Fault α → List Item → Prop) : Prop :=
  ∀ d : Desk, d.sheet.IsOpen p →
    ∃ items, Sheet.Grown d.sheet p items (w.run.run d).2.sheet ∧ Q (w.run.run d).1 items

theorem Adds.mono (h : Adds p w Q) (hQR : ∀ r items, Q r items → R r items) :
    Adds p w R := by
  intro d hd
  obtain ⟨items, hgrown, hQ⟩ := h d hd
  exact ⟨items, hgrown, hQR _ _ hQ⟩

theorem adds_pure {a : α} (h : Q (.ok a) []) : Adds p (pure a) Q :=
  fun d _ => ⟨[], Sheet.grown_self d.sheet p, h⟩

theorem adds_throw {f : Fault} (h : Q (.error f) []) : Adds p (throw f) Q :=
  fun d _ => ⟨[], Sheet.grown_self d.sheet p, h⟩

theorem Adds.bind {k : α → Writing β} {S : Except Fault β → List Item → Prop}
    (h : Adds p w Q) (herror : ∀ f items, Q (.error f) items → S (.error f) items)
    (hok : ∀ a items, Q (.ok a) items → Adds p (k a) fun r rest => S r (items ++ rest)) :
    Adds p (w >>= k) S := by
  intro d hd
  obtain ⟨items, hgrown, hQ⟩ := h d hd
  rw [run_bind]
  rcases hw : w.run.run d with ⟨f | a, d'⟩
  · rw [hw] at hgrown hQ
    exact ⟨items, hgrown, herror f items hQ⟩
  · rw [hw] at hgrown hQ
    obtain ⟨rest, hgrown', hS⟩ := hok a items hQ d' (hd.grown hgrown)
    exact ⟨items ++ rest, hgrown.trans hgrown', hS⟩

theorem adds_call (r : Routine) : Adds p (call r) fun _ items => items = [] :=
  fun d _ => ⟨[], Sheet.grown_self d.sheet p, rfl⟩

/-- A plain computation puts nothing anywhere. -/
theorem adds_lift {e : Except Fault α} {k : α → Writing β}
    {S : Except Fault β → List Item → Prop} (herror : ∀ f, e = .error f → S (.error f) [])
    (hok : ∀ a, e = .ok a → Adds p (k a) S) :
    Adds p ((fun d => (e, d) : Writing α) >>= k) S := by
  intro d hd
  rw [run_bind]
  cases e with
  | error f => exact ⟨[], Sheet.grown_self d.sheet p, herror f rfl⟩
  | ok a => exact hok a rfl d hd

/-- The script of failures says whether a native routine fails, and only the script changes. -/
theorem run_call_eq {r : Routine} {d : Desk} {ok : Bool} {f : Failures}
    (h : Failures.call r d.failures = (ok, f)) :
    (call r).run.run d =
      (if ok then .ok () else .error (.noMemory r), { d with failures := f }) := by
  simp [call, ExceptT.run, StateT.run, h]

theorem run_call (r : Routine) (d : Desk) : ∃ f,
    (call r).run.run d = (.error (.noMemory r), { d with failures := f }) ∨
      (call r).run.run d = (.ok (), { d with failures := f }) := by
  rcases hcall : Failures.call r d.failures with ⟨_ | _, f⟩
  · exact ⟨f, .inl (run_call_eq hcall)⟩
  · exact ⟨f, .inr (run_call_eq hcall)⟩

/-- What comes after a native routine is done, or the routine fails. -/
theorem run_call_bind (r : Routine) (w : Writing α) (d : Desk) : ∃ f,
    (call r >>= fun _ => w).run.run d = (.error (.noMemory r), { d with failures := f }) ∨
      (call r >>= fun _ => w).run.run d = w.run.run { d with failures := f } := by
  obtain ⟨f, hcall | hcall⟩ := run_call r d
  · exact ⟨f, .inl (by rw [run_bind, hcall])⟩
  · exact ⟨f, .inr (by rw [run_bind, hcall])⟩

/-- Appending a basic value fails and does nothing, or puts the value at the place. -/
theorem run_appendBasic (p : Place) (type : Char) (content : Scalar) (d : Desk) : ∃ f,
    (appendBasic p type content).run.run d =
        (.error (.noMemory .appendBasic), { d with failures := f }) ∨
      (appendBasic p type content).run.run d =
        (.ok (), ⟨f, d.sheet.add p (.basic type content),
          d.calls ++ [.basic p type content]⟩) :=
  run_call_bind .appendBasic _ d

/-- Opening a container fails and does nothing, or starts a draft. -/
theorem run_openContainer (p : Place) (k : ContainerKind) (signature : Option String)
    (d : Desk) : ∃ f,
    (openContainer p k signature).run.run d =
        (.error (.noMemory .openContainer), { d with failures := f }) ∨
      (openContainer p k signature).run.run d =
        (.ok d.sheet.drafts.length, ⟨f, d.sheet.openDraft p k signature,
          d.calls ++ [.opened p k signature d.sheet.drafts.length]⟩) :=
  run_call_bind .openContainer _ d

/-- Closing a container fails and does nothing, or closes its draft. -/
theorem run_closeContainer (n : Nat) (d : Desk) : ∃ f,
    (closeContainer n).run.run d =
        (.error (.noMemory .closeContainer), { d with failures := f }) ∨
      (closeContainer n).run.run d = (.ok (), ⟨f, d.sheet.close n, d.calls ++ [.closed n]⟩) :=
  run_call_bind .closeContainer _ d

theorem adds_appendBasic (type : Char) (content : Scalar) :
    Adds p (appendBasic p type content) fun r items =>
      items = if r.isOk then [.basic type content] else [] := by
  intro d hd
  obtain ⟨f, hrun | hrun⟩ := run_appendBasic p type content d
  · rw [hrun]
    exact ⟨[], Sheet.grown_self d.sheet p, rfl⟩
  · rw [hrun]
    exact ⟨[.basic type content], hd.grown_add _, rfl⟩

/-- A container is one item, if it can be filled and closed, and nothing otherwise. -/
theorem adds_inContainer {k : ContainerKind} {signature : Option String}
    {fill : Place → Writing Unit} {Q R : Except Fault Unit → List Item → Prop}
    (h : ∀ q, Adds q (fill q) Q) (herror : ∀ f, R (.error f) [])
    (hok : ∀ items, Q (.ok ()) items →
      R (.ok ()) [Draft.item ⟨p, k, signature, items, []⟩]) :
    Adds p (inContainer p k signature fill) R := by
  intro d hd
  rw [inContainer, run_bind]
  obtain ⟨fs, hrun | hrun⟩ := run_openContainer p k signature d
  · rw [hrun]
    exact ⟨[], Sheet.grown_self d.sheet p, herror _⟩
  generalize hd₁ : (⟨fs, d.sheet.openDraft p k signature,
    d.calls ++ [.opened p k signature d.sheet.drafts.length]⟩ : Desk) = d₁ at hrun
  have hsheet : d₁.sheet = d.sheet.openDraft p k signature := by
    rw [← hd₁]
  rw [hrun]
  simp only [run_bind, run_tryCatch]
  have hopen := Sheet.isOpen_openDraft d.sheet p k signature
  obtain ⟨items, hgrown, hQ⟩ := h (.draft d.sheet.drafts.length) d₁ (by rwa [hsheet])
  rw [hsheet] at hgrown
  rcases hfill : (fill (.draft d.sheet.drafts.length)).run.run d₁ with ⟨f | a, d₂⟩
  · rw [hfill] at hgrown
    exact ⟨[], hgrown.outside, herror f⟩
  rw [hfill] at hgrown hQ
  obtain ⟨fs', hrun' | hrun'⟩ := run_closeContainer d.sheet.drafts.length d₂
  · simp only [hrun']
    exact ⟨[], hgrown.outside, herror _⟩
  · simp only [hrun']
    exact ⟨_, hgrown.close hd, hok items hQ⟩

end Writing

end DBusHost
