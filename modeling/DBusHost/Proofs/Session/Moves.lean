import DBusHost.Session.State
import Mathlib.Order.Defs.Unbundled

/-!
# How computations move the state

`Moves R w` says that the computation `w` leads from every state to one that is related to
it by `R`.  If `R` is a preorder, this can be read off the parts of the computation.  A part
of a session is looked at as the computation that runs it.
-/

namespace DBusHost

variable {α β : Type} {R S : Host → Host → Prop}

/-- The computation leads from every state to a related one. -/
def Moves (R : Host → Host → Prop) (w : StateM Host α) : Prop := ∀ h, R h (w.run h).2

theorem Moves.mono {w : StateM Host α} (h : Moves R w) (hRS : ∀ a b, R a b → S a b) :
    Moves S w := fun s => hRS _ _ (h s)

theorem Moves.map {w : StateM Host α} (h : Moves R w) (f : α → β) : Moves R (f <$> w) := h

theorem Moves.discard {w : StateM Host α} (h : Moves R w) :
    Moves R (Functor.discard w) := h

/-- A computation that looks at the state first. -/
theorem moves_get {k : Host → StateM Host α} (h : ∀ s, R s ((k s).run s).2) :
    Moves R (get >>= k) := h

/-- A computation that looks at the state and goes on whatever it has seen. -/
theorem Moves.get {k : Host → StateM Host α} (h : ∀ s, Moves R (k s)) :
    Moves R (MonadState.get >>= k) := fun s => h s s

section

variable [IsPreorder Host R]

theorem moves_pure (a : α) : Moves R (pure a) := fun s => refl_of R s

theorem Moves.of_eq {w : StateM Host α} (h : Moves (· = ·) w) : Moves R w :=
  fun s => h s ▸ refl_of R s

theorem Moves.bind {w : StateM Host α} {k : α → StateM Host β} (h : Moves R w)
    (hk : ∀ a, Moves R (k a)) : Moves R (w >>= k) :=
  fun s => trans_of R (h s) (hk _ _)

end

namespace Session

theorem run_bind (s : Session α) (k : α → Session β) (h : Host) :
    (s >>= k).run.run h =
      match s.run.run h with
      | (.ok a, h') => (k a).run.run h'
      | (.error f, h') => (.error f, h') := by
  rw [ExceptT.run_bind, StateT.run_bind]
  rcases s.run.run h with ⟨_ | _, h'⟩ <;> rfl

theorem exists_of_bind_eq {s : Session α} {k : α → Session β} {h h' : Host} {b : β}
    (hb : (s >>= k).run.run h = (.ok b, h')) :
    ∃ a h₁, s.run.run h = (.ok a, h₁) ∧ (k a).run.run h₁ = (.ok b, h') := by
  rw [run_bind] at hb
  rcases hrun : s.run.run h with ⟨f | a, h₁⟩
  · rw [hrun] at hb
    cases hb
  · rw [hrun] at hb
    exact ⟨a, h₁, rfl, hb⟩

theorem exists_of_bind_ok {s : Session α} {k : α → Session β} {h : Host} {b : β}
    (hb : ((s >>= k).run.run h).1 = .ok b) :
    ∃ a h₁, s.run.run h = (.ok a, h₁) ∧ ((k a).run.run h₁).1 = .ok b := by
  obtain ⟨a, h₁, hs, hk⟩ := exists_of_bind_eq (Prod.ext hb rfl)
  exact ⟨a, h₁, hs, by rw [hk]⟩

theorem run_lift_bind (w : StateM Host α) (k : α → Session β) (h : Host) :
    ((liftM w : Session α) >>= k).run.run h = (k (w.run h).1).run.run (w.run h).2 := rfl

theorem moves_lift {w : StateM Host α} (h : Moves R w) :
    Moves R (liftM w : Session α).run := h

theorem moves_result {s : Session α} (h : Moves R s.run) : Moves R s.result := h

theorem moves_get {k : Host → Session α} (h : ∀ r, R r ((k r).run.run r).2) :
    Moves R (get >>= k).run := h

theorem moves_ofExcept (e : Except Fault α) : Moves (· = ·) (ofExcept e).run := fun _ => rfl

section

variable [IsPreorder Host R]

theorem moves_pure (a : α) : Moves R (pure a : Session α).run := fun h => refl_of R h

theorem moves_throw (f : Fault) : Moves R (throw f : Session α).run := fun h => refl_of R h

theorem moves_bind {s : Session α} {k : α → Session β} (h : Moves R s.run)
    (hk : ∀ a, Moves R (k a).run) : Moves R (s >>= k).run := by
  intro r
  rw [run_bind]
  have hs := h r
  rcases hrun : s.run.run r with ⟨f | a, r'⟩
  · rwa [hrun] at hs
  · rw [hrun] at hs
    exact trans_of R hs (hk a r')

theorem moves_discard {s : Session α} (h : Moves R s.run) :
    Moves R (Functor.discard s : Session PUnit).run :=
  moves_bind h fun _ => moves_pure _

/-- A part of a session that only looks at the state comes first. -/
theorem bind_of_eq {s : Session α} {k : α → Session β} (h : Moves (· = ·) s.run) (r : Host)
    (hk : ∀ a, (s.run.run r).1 = .ok a → R r ((k a).run.run r).2) :
    R r ((s >>= k).run.run r).2 := by
  have hs := h r
  rw [run_bind]
  rcases hrun : s.run.run r with ⟨f | a, r'⟩
  · rw [hrun] at hs
    obtain rfl := hs
    exact refl_of R _
  · rw [hrun] at hs
    obtain rfl := hs
    exact hk a (by rw [hrun])

end

/-- A part of a session that only looks at the state comes first, and what follows runs in the
same state. -/
theorem run_bind_of_eq {s : Session α} {k : α → Session β} (h : Moves (· = ·) s.run) (r : Host) :
    (s >>= k).run.run r = match (s.run.run r).1 with
      | .ok a => (k a).run.run r
      | .error f => (.error f, r) := by
  have hs := h r
  rw [run_bind]
  rcases hrun : s.run.run r with ⟨f | a, r'⟩ <;> rw [hrun] at hs <;> obtain rfl := hs <;> rfl

end Session

end DBusHost
