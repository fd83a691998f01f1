import DBusHost.Proofs.Session.Parts
import DBusHost.Proofs.Session.Preservation

/-!
# Paths of acts

`Follows` holds from an orderly state to another one if acts lead there.  Every change that
steps are made of is an act, so what follows on the steps that have nothing to do with calls is
known already.  The acts on calls need calls of a certain kind, which is kept on the way to
them.
-/

namespace DBusHost

open Host

/-- If the first state is orderly, acts lead from it to the second one. -/
def Follows (h h' : Host) : Prop := h.Orderly → Acts h h'

instance : IsPreorder Host Follows where
  refl _ _ := .refl
  trans _ _ _ hab hbc ho := (hab ho).trans (hbc ((hab ho).orderly ho))

/-- If the first state is orderly and of a kind, acts lead from it to the second one. -/
def FollowsIf (Q : Host → Prop) (h h' : Host) : Prop := h.Orderly → Q h → Acts h h'

/-- If the first state is orderly and of a kind, acts lead from it to the second one, which is
of the kind as well. -/
def Keeps (Q : Host → Prop) (h h' : Host) : Prop := h.Orderly → Q h → Acts h h' ∧ Q h'

instance (Q : Host → Prop) : IsPreorder Host (Keeps Q) where
  refl _ _ hq := ⟨.refl, hq⟩
  trans _ _ _ hab hbc ho hq := by
    obtain ⟨hacts, hq⟩ := hab ho hq
    obtain ⟨hacts', hq⟩ := hbc (hacts.orderly ho) hq
    exact ⟨hacts.trans hacts', hq⟩

section

variable {α β : Type} {Q : Host → Prop} {h h' : Host} {c : CallId}

theorem Act.follows (ha : Act h h') : Follows h h' := fun _ => .single ha

theorem Session.moves_bind_keeps {s : Session α} {k : α → Session β}
    (hs : Moves (Keeps Q) s.run)
    (hk : ∀ a, (∃ r, (s.run.run r).1 = .ok a) → Moves (FollowsIf Q) (k a).run) :
    Moves (FollowsIf Q) (s >>= k).run := by
  intro r ho hq
  obtain ⟨hacts, hq'⟩ := hs r ho hq
  rw [Session.run_bind]
  rcases hrun : s.run.run r with ⟨f | a, r'⟩
  · rw [hrun] at hacts
    exact hacts
  · rw [hrun] at hacts hq'
    exact hacts.trans (hk a ⟨r, by rw [hrun]⟩ r' (hacts.orderly ho) hq')

/-- Every single change is an act. -/
instance : AdmitsChanges Follows where
  serene hserene := (Act.calm hserene.toCalm).follows
  create r _ := (Act.create r).follows
  share r _ := (Act.share r).follows
  adopt r _ := (Act.adopt r).follows
  letGoWrapper w _ := (Act.letGoWrapper w).follows
  name _ s _ hc := (Act.name s _ fun c h => absurd h (hc c)).follows
  forget _ s := (Act.forget s).follows
  close p _ := (Act.close p).follows

theorem Host.Orderly.acts_assign (ho : h.Orderly) {t : Thing}
    (ht : ∀ c, t = .handle c → h.IsLoose c) (name : String) :
    Acts h ((assign name t).run h).2 := by
  have hname : Acts h { h with names := h.names.put name t } := .single (.name name t ht)
  have hnamed : Moves Follows _ := moves_named name t (h.names.get? name)
  exact hname.trans (hnamed _ (hname.orderly ho))

end

end DBusHost
