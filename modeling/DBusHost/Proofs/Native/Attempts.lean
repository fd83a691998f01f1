import DBusHost.Signature.Cursor

/-!
# Attempts that succeed

While no native routine fails, an attempt either gives a result or ends in a fault of its own.
What it gives is given by its parts, one after the other.
-/

namespace DBusHost

/-- The parts of an evaluation that has not failed have not failed. -/
theorem eq_ok_of_bind {α β : Type} {e : Except Fault α} {k : α → Except Fault β} {b : β}
    (h : e >>= k = .ok b) : ∃ a, e = .ok a ∧ k a = .ok b := by
  cases e with
  | error f => simp [bind, Except.bind] at h
  | ok a => exact ⟨a, rfl, h⟩

namespace Attempt

variable {α β : Type}

/-- While no native routine fails, the attempt succeeds with a result. -/
def Gives (a : Attempt α) (x : α) : Prop := a.run.run [] = (.ok x, [])

theorem gives_pure (x : α) : Gives (pure x) x := rfl

theorem gives_call (r : Routine) : Gives (call r) () := by
  simp only [Gives, call, ExceptT.run, StateT.run, Failures.call_nil]
  rfl

theorem Gives.bind {a : Attempt α} {k : α → Attempt β} {x : α} {y : β} (h : Gives a x)
    (hk : Gives (k x) y) : Gives (a >>= k) y := by
  rw [Gives, ExceptT.run_bind, StateT.run_bind, h]
  exact hk

theorem Gives.map {a : Attempt α} {x : α} (h : Gives a x) (f : α → β) : Gives (f <$> a) (f x) := by
  rw [← bind_pure_comp]
  exact h.bind (gives_pure _)

/-- An attempt gives one result at most. -/
theorem Gives.unique {a : Attempt α} {x y : α} (hx : Gives a x) (hy : Gives a y) : x = y :=
  Except.ok.inj (Prod.mk.inj (hx.symm.trans hy)).1

/-- While no native routine fails, the attempt ends in a fault. -/
def Fails (a : Attempt α) (f : Fault) : Prop := a.run.run [] = (.error f, [])

theorem Gives.bind_throw {a : Attempt α} {f : α → Fault} {x : α} (h : Gives a x) :
    Fails (a >>= fun y => (throw (f y) : Attempt β)) (f x) := by
  rw [Fails, ExceptT.run_bind, StateT.run_bind, h]
  rfl

theorem Gives.not_fails {a : Attempt α} {x : α} {f : Fault} (h : Gives a x) : ¬ Fails a f := by
  intro hf
  cases (Prod.mk.inj (h.symm.trans hf)).1

/-! ## What holds of every result -/

/-- Whatever native routines fail, a result of the attempt has a property. -/
def Ensures (a : Attempt α) (P : α → Prop) : Prop :=
  ∀ f x f', a.run.run f = (.ok x, f') → P x

variable {P : α → Prop} {Q : β → Prop}

theorem ensures_pure {x : α} (h : P x) : Ensures (pure x) P := by
  intro f y f' hrun
  obtain rfl := Except.ok.inj (Prod.mk.inj hrun).1
  exact h

theorem ensures_throw (f : Fault) : Ensures (throw f) P := by
  intro g x g' hrun
  cases (Prod.mk.inj hrun).1

theorem ensures_true (a : Attempt α) : Ensures a fun _ => True := fun _ _ _ _ => trivial

theorem Ensures.bind {a : Attempt α} {k : α → Attempt β} (h : Ensures a P)
    (hk : ∀ x, P x → Ensures (k x) Q) : Ensures (a >>= k) Q := by
  intro f y f' hrun
  rw [ExceptT.run_bind, StateT.run_bind] at hrun
  rcases ha : a.run.run f with ⟨e | x, f₁⟩
  · rw [ha] at hrun
    cases (Prod.mk.inj hrun).1
  · rw [ha] at hrun
    exact hk x (h f x f₁ ha) f₁ y f' hrun

end Attempt

end DBusHost
