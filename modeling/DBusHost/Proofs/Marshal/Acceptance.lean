import DBusHost.Message.Sheet

/-!
# Whether writing succeeds

While no native routine fails, whether arguments can be written does not depend on what has
been written before.  `AcceptsIff w P` says that the writing `w` succeeds if and only if `P`
holds; the lemmas of this module find `P` for a writing from those of its parts.
-/

namespace DBusHost.Writing

variable {α β : Type}

theorem run_bind (w : Writing α) (k : α → Writing β) (d : Desk) :
    (w >>= k).run.run d =
      match w.run.run d with
      | (.ok a, d') => (k a).run.run d'
      | (.error f, d') => (.error f, d') := by
  rw [ExceptT.run_bind, StateT.run_bind]
  rcases w.run.run d with ⟨_ | _, d'⟩ <;> rfl

theorem run_tryCatch (w : Writing α) (handle : Fault → Writing α) (d : Desk) :
    (tryCatch w handle).run.run d =
      match w.run.run d with
      | (.ok a, d') => (.ok a, d')
      | (.error f, d') => (handle f).run.run d' := by
  rw [ExceptT.run_tryCatch, StateT.run_bind]
  rcases w.run.run d with ⟨_ | _, d'⟩ <;> rfl

/-- While no native routine fails, the writing succeeds if and only if `P` holds, and no
native routine fails afterwards. -/
def AcceptsIff (w : Writing α) (P : Prop) : Prop :=
  ∀ d : Desk, d.failures = [] →
    ((w.run.run d).1.isOk = true ↔ P) ∧ (w.run.run d).2.failures = []

theorem AcceptsIff.congr {w : Writing α} {P Q : Prop} (h : AcceptsIff w P) (hPQ : P ↔ Q) :
    AcceptsIff w Q := fun d hd => ⟨(h d hd).1.trans hPQ, (h d hd).2⟩

theorem AcceptsIff.run_eq_ok_iff {w : Writing Unit} {P : Prop} (h : AcceptsIff w P) {d : Desk}
    (hd : d.failures = []) : (w.run.run d).1 = .ok () ↔ P := by
  rw [← (h d hd).1]
  cases (w.run.run d).1 with
  | error f => simp [Except.isOk, Except.toBool]
  | ok a => simp [Except.isOk, Except.toBool]

theorem acceptsIff_pure (a : α) : AcceptsIff (pure a) True :=
  fun _ hd => ⟨⟨fun _ => trivial, fun _ => rfl⟩, hd⟩

theorem acceptsIff_throw (f : Fault) : AcceptsIff (throw f : Writing α) False :=
  fun _ hd => ⟨⟨fun h => Bool.noConfusion h, False.elim⟩, hd⟩

theorem acceptsIff_modify (f : Desk → Desk) (hf : ∀ d, (f d).failures = d.failures) :
    AcceptsIff (modify f) True :=
  fun d hd => ⟨⟨fun _ => trivial, fun _ => rfl⟩, (hf d).trans hd⟩

theorem AcceptsIff.bind {w : Writing α} {k : α → Writing β} {P Q : Prop}
    (h : AcceptsIff w P) (hk : ∀ a, AcceptsIff (k a) Q) : AcceptsIff (w >>= k) (P ∧ Q) := by
  intro d hd
  obtain ⟨hP, hfailures⟩ := h d hd
  rw [run_bind]
  rcases hw : w.run.run d with ⟨f | a, d'⟩
  · rw [hw] at hP hfailures
    have hnot : ¬ P := fun hp => absurd (hP.mpr hp) (by simp [Except.isOk, Except.toBool])
    exact ⟨by simp [hnot, Except.isOk, Except.toBool], hfailures⟩
  · rw [hw] at hP hfailures
    obtain ⟨hQ, hfailures'⟩ := hk a d' hfailures
    exact ⟨hQ.trans ⟨fun hq => ⟨hP.mp rfl, hq⟩, And.right⟩, hfailures'⟩

theorem acceptsIff_call (r : Routine) : AcceptsIff (call r) True := by
  intro d hd
  have hrun : (call r).run.run d = (.ok (), { d with failures := [] }) := by
    simp only [call, ExceptT.run, StateT.run, hd, Failures.call_nil]
    rfl
  rw [hrun]
  exact ⟨⟨fun _ => trivial, fun _ => rfl⟩, rfl⟩

/-- A plain computation has to succeed before the rest is looked at. -/
theorem acceptsIff_lift {e : Except Fault α} {k : α → Writing β} {P : α → Prop}
    (h : ∀ a, e = .ok a → AcceptsIff (k a) (P a)) :
    AcceptsIff ((fun d => (e, d) : Writing α) >>= k) (∃ a, e = .ok a ∧ P a) := by
  intro d hd
  rw [run_bind]
  cases e with
  | error f => exact ⟨by simp [ExceptT.run, StateT.run, Except.isOk, Except.toBool], hd⟩
  | ok a =>
      obtain ⟨hP, hfailures⟩ := h a rfl d hd
      exact ⟨by simpa [ExceptT.run, StateT.run] using hP, hfailures⟩

theorem acceptsIff_appendBasic (p : Place) (type : Char) (content : Scalar) :
    AcceptsIff (appendBasic p type content) True := by
  have hrecord := acceptsIff_modify (fun d =>
    { d with calls := d.calls ++ [.basic p type content] }) fun _ => rfl
  have hadd := acceptsIff_modify (fun d =>
    { d with sheet := d.sheet.add p (.basic type content) }) fun _ => rfl
  exact ((acceptsIff_call _).bind fun _ => hrecord.bind fun _ => hadd).congr (by simp)

theorem acceptsIff_closeContainer (n : Nat) : AcceptsIff (closeContainer n) True := by
  have hrecord := acceptsIff_modify (fun d =>
    { d with calls := d.calls ++ [.closed n] }) fun _ => rfl
  have hclose := acceptsIff_modify (fun d =>
    { d with sheet := d.sheet.close n }) fun _ => rfl
  exact ((acceptsIff_call _).bind fun _ => hrecord.bind fun _ => hclose).congr (by simp)

theorem acceptsIff_openContainer (p : Place) (k : ContainerKind) (signature : Option String) :
    AcceptsIff (openContainer p k signature) True := by
  have hrest : AcceptsIff (do
      let n := (← get).sheet.drafts.length
      record (.opened p k signature n)
      modify fun d => { d with sheet := d.sheet.openDraft p k signature }
      return n) True := fun _ hd => ⟨⟨fun _ => trivial, fun _ => rfl⟩, hd⟩
  exact ((acceptsIff_call _).bind fun _ => hrest).congr (by simp)

/-- A filling that is abandoned when it fails succeeds as the filling does. -/
theorem AcceptsIff.orAbandon {w : Writing Unit} {P : Prop} (h : AcceptsIff w P) (n : Nat) :
    AcceptsIff (tryCatch w fun f => do
      abandonContainer n
      throw f) P := by
  intro d hd
  obtain ⟨hP, hfailures⟩ := h d hd
  rw [run_tryCatch]
  rcases hw : w.run.run d with ⟨f | a, d'⟩
  · rw [hw] at hP hfailures
    exact ⟨hP, hfailures⟩
  · rw [hw] at hP hfailures
    exact ⟨hP, hfailures⟩

/-- A container can be written if and only if it can be filled. -/
theorem acceptsIff_inContainer (p : Place) (k : ContainerKind) (signature : Option String)
    {fill : Place → Writing Unit} {P : Prop} (h : ∀ q, AcceptsIff (fill q) P) :
    AcceptsIff (inContainer p k signature fill) P := by
  have hfill := fun n => ((h (.draft n)).orAbandon n).bind fun _ => acceptsIff_closeContainer n
  exact ((acceptsIff_openContainer p k signature).bind hfill).congr (by simp)

end DBusHost.Writing
