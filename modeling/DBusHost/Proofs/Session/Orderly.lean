import DBusHost.Proofs.Session.Opening

/-!
# Orderly states

The slot of a pending call, its call, what is registered with the call and what has happened
fit together in every state that acts can lead to.  In particular a slot is empty as soon as
an event has taken the reaction out of it, and a handler is only started right after the
notification that has done so for the first time.
-/

namespace DBusHost

namespace Host

/-- The events end with a notification that has taken the reaction out of the slot of a
pending call, the reply out of its call and the reply over into a wrapper, and nothing had
emptied the slot before. -/
def IsNotified (h : Host) (before : List Event) (p : PendingId) (w : WrapperId) : Prop :=
  ∃ front m rest, before = front ++ [.notified (h.pending p).call (.slot p), .locked,
      .stolen (h.pending p).call m, .adopted (.message m)] ++ rest ∧
    (rest = [] ∨ rest = [.released (.message m)]) ∧
    (∃ x, h.wrappers[w]? = some x ∧ x.resource = .message m) ∧
    ∀ e ∈ front, ¬ e.Empties p (h.pending p).call

/-- Slots, calls, registrations, names and events fit together. -/
structure Orderly (h : Host) : Prop where
  owned : ∀ p < h.pendings.length, (h.pending p).call < h.calls.length
  distinct : ∀ p < h.pendings.length, ∀ q < h.pendings.length,
    (h.pending p).call = (h.pending q).call → p = q
  registered : ∀ c p, (h.call c).registration.data = .slot p →
    p < h.pendings.length ∧ (h.pending p).call = c
  handles : ∀ e ∈ h.names, ∀ c, e.2 = .handle c → h.IsLoose c
  lines : ∀ e ∈ h.lines, e.2 < h.calls.length
  within : ∀ e ∈ h.trace, e.IsWithin h.calls.length h.pendings.length
  completed : ∀ c, (h.call c).completed = true ↔ .completed c ∈ h.trace
  emptied : ∀ p < h.pendings.length, ∀ e ∈ h.trace, e.Empties p (h.pending p).call →
    (h.pending p).slot = .absent
  starts : ∀ before p id w after, h.trace = before ++ .started p id w :: after →
    h.IsNotified before p w

theorem orderly_start (v : Validator) (f : Failures) : (start v f).Orderly where
  owned _ hp := absurd hp (Nat.not_lt_zero _)
  distinct _ hp := absurd hp (Nat.not_lt_zero _)
  registered _ _ hp := by cases hp
  handles _ he := absurd he List.not_mem_nil
  lines _ he := absurd he List.not_mem_nil
  within _ he := absurd he List.not_mem_nil
  completed c := ⟨fun hc => (Bool.false_ne_true hc).elim, fun hc => absurd hc List.not_mem_nil⟩
  emptied _ hp := absurd hp (Nat.not_lt_zero _)
  starts before p id w after hsplit := by simp [start] at hsplit

section

variable {P : PendingId → Prop} {C : CallId → Prop} {h h' : Host}

theorem IsNotified.mono {before : List Event} {p : PendingId} {w : WrapperId}
    (hn : h.IsNotified before p w) (hcall : (h'.pending p).call = (h.pending p).call)
    (hwrappers : ∀ x : Wrapper, h.wrappers[w]? = some x →
      ∃ y : Wrapper, h'.wrappers[w]? = some y ∧ y.resource = x.resource) :
    h'.IsNotified before p w := by
  obtain ⟨front, m, rest, hbefore, hrest, ⟨x, hx, hresource⟩, hfront⟩ := hn
  obtain ⟨y, hy, hyx⟩ := hwrappers x hx
  refine ⟨front, m, rest, ?_, hrest, ⟨y, hy, hyx.trans hresource⟩, ?_⟩
  · rw [hcall]
    exact hbefore
  · rw [hcall]
    exact hfront

theorem Orderly.lt_of_started (ho : h.Orderly) {before after : List Event} {p : PendingId}
    {id : String} {w : WrapperId} (htrace : h.trace = before ++ .started p id w :: after) :
    p < h.pendings.length := by
  obtain ⟨front, m, rest, hbefore, -⟩ := ho.starts before p id w after htrace
  have hmem : Event.notified (h.pending p).call (.slot p) ∈ h.trace := by
    rw [htrace, hbefore]
    simp
  exact (ho.within _ hmem).2

/-- What stands in front of an event stands there as well if nothing is appended. -/
theorem exists_of_append_eq {xs es before after : List Event} {e : Event}
    (hsplit : xs ++ es = before ++ e :: after) (he : e ∉ es) :
    ∃ rest, xs = before ++ e :: rest := by
  rcases List.append_eq_append_iff.mp hsplit with ⟨mid, -, hes⟩ | ⟨mid, hxs, hmid⟩
  · exact absurd (hes ▸ List.mem_append_right mid List.mem_cons_self) he
  · cases mid with
    | nil =>
        obtain rfl : e :: after = es := hmid
        exact absurd List.mem_cons_self he
    | cons d rest =>
        obtain ⟨rfl, -⟩ := List.cons.inj hmid
        exact ⟨rest, hxs⟩

theorem eq_or_exists_of_concat_eq {xs before after : List Event} {d e : Event}
    (hsplit : xs ++ [d] = before ++ e :: after) :
    (xs = before ∧ d = e) ∨ ∃ rest, xs = before ++ e :: rest := by
  rcases List.append_eq_append_iff.mp hsplit with ⟨mid, hbefore, hmid⟩ | ⟨mid, hxs, hmid⟩
  · cases mid with
    | nil => exact .inl ⟨by simpa using hbefore.symm, (List.cons.inj hmid).1⟩
    | cons f rest => simp at hmid
  · cases mid with
    | nil => exact .inl ⟨by simpa using hxs, (List.cons.inj hmid).1.symm⟩
    | cons f rest =>
        obtain ⟨rfl, -⟩ := List.cons.inj hmid
        exact .inr ⟨rest, hxs⟩

/-- A way that empties the slots of the pending calls that it touches, or on which nothing
happens. -/
theorem Touches.orderly (hh : Touches P C h h') (ho : h.Orderly)
    (hslot : ∀ p, P p → (h'.pending p).slot = .absent ∨ h'.trace = h.trace) : h'.Orderly := by
  obtain ⟨es, htrace, hfits⟩ := hh.trace
  have hwithin : ∀ e ∈ h.trace, e.IsWithin h'.calls.length h'.pendings.length := fun e he =>
    (ho.within e he).mono hh.calls (Nat.le_of_eq hh.size.symm)
  constructor
  case owned =>
    intro p hp
    rw [hh.owner p]
    exact Nat.lt_of_lt_of_le (ho.owned p (hh.size ▸ hp)) hh.calls
  case distinct =>
    intro p hp q hq
    rw [hh.owner p, hh.owner q]
    exact ho.distinct p (hh.size ▸ hp) q (hh.size ▸ hq)
  case registered =>
    intro c p hp
    rcases hh.registered c p hp with hp | hp
    · obtain ⟨hlt, hcall⟩ := ho.registered c p hp
      exact ⟨hh.size ▸ hlt, (hh.owner p).trans hcall⟩
    · exact hp
  case handles =>
    intro e he c hc
    rcases hh.handles e he with he | he
    · exact hh.isLoose (ho.handles e he c hc)
    · exact he c hc
  case lines =>
    intro e he
    rcases hh.lines e he with he | he
    · exact Nat.lt_of_lt_of_le (ho.lines e he) hh.calls
    · exact he
  case within =>
    intro e he
    rw [htrace] at he
    rcases List.mem_append.mp he with he | he
    · exact hwithin e he
    · exact (hfits e he).within
  case completed =>
    intro c
    rw [hh.completed c, ho.completed c, htrace, List.mem_append]
    constructor
    · exact .inl
    · rintro (hc | hc)
      · exact hc
      · exact absurd rfl ((hfits _ hc).notCompleted c)
  case emptied =>
    intro p hp e he hempties
    rw [htrace] at he
    rcases List.mem_append.mp he with he | he
    · rw [hh.owner p] at hempties
      have habsent := ho.emptied p (hh.size ▸ hp) e he hempties
      rcases hh.slot p with hp | hp
      · exact hp.trans habsent
      · exact hp
    · rcases hslot p ((hfits e he).emptied p hp hempties) with hp | hsame
      · exact hp
      · rw [hsame] at htrace
        obtain rfl : es = [] := by simpa using htrace
        exact absurd he List.not_mem_nil
  case starts =>
    intro before p id w after hsplit
    have hnot : Event.started p id w ∉ es := fun he => (hfits _ he).notStarted p id w rfl
    obtain ⟨rest, hrest⟩ := exists_of_append_eq (htrace ▸ hsplit) hnot
    exact (ho.starts before p id w rest hrest).mono (hh.owner p) (hh.wrappers w)

theorem Touches.orderly_of_none (hh : Touches (fun _ => False) C h h') (ho : h.Orderly) :
    h'.Orderly := hh.orderly ho fun _ => False.elim

/-- A call may be marked as completed. -/
theorem Orderly.mark (ho : h.Orderly) {c : CallId} (hc : c < h.calls.length) :
    ((Host.mark c).run h).2.Orderly := by
  have hlen : ((Host.mark c).run h).2.calls.length = h.calls.length := List.length_modify ..
  have htrace : ((Host.mark c).run h).2.trace = h.trace ++ [.completed c] := rfl
  have hloose : ∀ d, h.IsLoose d → ((Host.mark c).run h).2.IsLoose d :=
    fun d hd => ⟨Nat.lt_of_lt_of_eq hd.1 hlen.symm, hd.2⟩
  constructor
  case owned =>
    intro p hp
    exact Nat.lt_of_lt_of_eq (ho.owned p hp) hlen.symm
  case distinct => exact ho.distinct
  case registered =>
    intro d p hp
    apply ho.registered d p
    rw [call_mark] at hp
    split at hp <;> exact hp
  case handles =>
    intro e he d hd
    exact hloose d (ho.handles e he d hd)
  case lines =>
    intro e he
    exact Nat.lt_of_lt_of_eq (ho.lines e he) hlen.symm
  case within =>
    intro e he
    rw [htrace] at he
    rcases List.mem_append.mp he with he | he
    · rw [hlen]
      exact ho.within e he
    · obtain rfl := List.mem_singleton.mp he
      exact Nat.lt_of_lt_of_eq hc hlen.symm
  case completed =>
    intro d
    rw [call_mark, htrace, List.mem_append, List.mem_singleton]
    by_cases hd : c = d
    · subst hd
      simp [hc]
    · have hne : Event.completed d ≠ .completed c := by simpa using Ne.symm hd
      simp only [hd, false_and, if_false, hne, or_false]
      exact ho.completed d
  case emptied =>
    intro p hp e he hempties
    rw [htrace] at he
    rcases List.mem_append.mp he with he | he
    · exact ho.emptied p hp e he hempties
    · obtain rfl := List.mem_singleton.mp he
      exact hempties.elim
  case starts =>
    intro before p id w after hsplit
    obtain ⟨rest, hrest⟩ := exists_of_append_eq (htrace ▸ hsplit) (by simp)
    exact (ho.starts before p id w rest hrest).mono rfl fun x hx => ⟨x, hx, rfl⟩

/-- A handler may be started on the reply after the notification. -/
theorem Starting.orderly {c : CallId} {p : PendingId} {m : MessageId} {w : WrapperId}
    (hs : Starting h h' c p m w) (ho : h.Orderly) (hc : c < h.calls.length)
    (hp : p < h.pendings.length) (hpc : (h.pending p).call = c)
    (hslot : (h.pending p).slot ≠ .absent) (id : String) :
    ((record (.started p id w)).run h').2.Orderly := by
  have ho' : h'.Orderly := by
    refine hs.touches.orderly (ho.mark hc) fun q hq => .inl ?_
    obtain rfl : q = p := hq
    exact hs.slot
  obtain ⟨rest, hrest, htrace⟩ := hs.trace
  have hcall : (h'.pending p).call = c := (hs.touches.owner p).trans hpc
  have hfront : ∀ e ∈ h.trace ++ [.completed c], ¬ e.Empties p c := by
    intro e he hempties
    rcases List.mem_append.mp he with he | he
    · exact hslot (ho.emptied p hp e he (hpc ▸ hempties))
    · obtain rfl := List.mem_singleton.mp he
      exact hempties
  constructor
  case owned => exact ho'.owned
  case distinct => exact ho'.distinct
  case registered => exact ho'.registered
  case handles => exact ho'.handles
  case lines => exact ho'.lines
  case within =>
    intro e he
    rcases List.mem_append.mp he with he | he
    · exact ho'.within e he
    · obtain rfl := List.mem_singleton.mp he
      trivial
  case completed =>
    intro d
    have hmem : Event.completed d ∈ h'.trace ++ [.started p id w] ↔ .completed d ∈ h'.trace := by
      simp
    exact (ho'.completed d).trans hmem.symm
  case emptied =>
    intro q hq e he hempties
    rcases List.mem_append.mp he with he | he
    · exact ho'.emptied q hq e he hempties
    · obtain rfl := List.mem_singleton.mp he
      exact hempties.elim
  case starts =>
    intro before q i v after hsplit
    change h'.IsNotified before q v
    rcases eq_or_exists_of_concat_eq hsplit with ⟨rfl, hstarted⟩ | ⟨after, hxs⟩
    · obtain ⟨rfl, rfl, rfl⟩ : p = q ∧ id = i ∧ w = v := by simpa using hstarted
      refine ⟨h.trace ++ [.completed c], m, rest, ?_, hrest, hs.wrapper, ?_⟩
      · rw [htrace, hcall]
        simp
      · rw [hcall]
        exact hfront
    · exact ho'.starts before q i v after hxs

end

end Host

end DBusHost
