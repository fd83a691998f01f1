import DBusHost.Proofs.Session.Dealings

/-!
# The two copies of a registration

What is registered with a call is kept twice: by the native library, which calls the functions,
and by the handle, which keeps them alive.  The old free function is called in the middle of a
registration, when the library has the new functions already and the handle still has the old
ones, and it may use the handle.  All the same the two copies are equal whenever nothing is in
progress, until the handle gives the call up and the library has none.

The events say what becomes of each registration: its data is freed once, and its notify function
is called while it is the latest one.
-/

namespace DBusHost

open Host Registration

/-- What is done with a call from a state on, functions being registered as well.  The list has
the registrations that succeeded, in order. -/
inductive Handling (c : CallId) (h₀ : Host) : List Registration → Host → Prop
  | start : Handling c h₀ [] h₀
  | dealings {rs : List Registration} {h h' : Host} (hh : Handling c h₀ rs h)
      (hd : Dealings c h h') : Handling c h₀ rs h'
  | registered {rs : List Registration} {h : Host} (k : Callbacks) (r : Registration)
      (hh : Handling c h₀ rs h) (hattached : (h.call c).attached = true)
      (hcalled : (h.call c).registration.frees = true → Dealings c (h.freeing c r)
        ((k.onFree (h.call c).registration.data).run (h.freeing c r)).2)
      (hok : ((k.setNotify c r).run h).1 = true) :
      Handling c h₀ (rs ++ [r]) ((k.setNotify c r).run h).2
  | refused {rs : List Registration} {h : Host} (k : Callbacks) (r : Registration)
      (hh : Handling c h₀ rs h) (hfailed : ((k.setNotify c r).run h).1 = false) :
      Handling c h₀ rs ((k.setNotify c r).run h).2

section

variable {c : CallId} {h h' : Host} {k : Callbacks} {r : Registration}

/-! ## Both copies -/

/-- The library and the handle are in step after the registrations. -/
structure InStep (c : CallId) (h₀ : Host) (rs : List Registration) (h : Host) : Prop where
  sound : h.Sound c
  copies : (h.call c).attached = true →
    (h.call c).registration = (h.call c).kept ∧ (h.call c).registration = rs.getLastD .none
  events : ∃ es, h.trace = h₀.trace ++ es ∧
    es.filterMap (Event.freed? c) =
      toFree (if (h.call c).attached = true then rs.dropLast else rs) ∧
    (∀ x ∈ Event.notices c 0 es, ∃ r, (Registration.none :: rs)[x.1]? = some r ∧
      r.notifies = true ∧ r.data = x.2) ∧
    ((h.call c).attached = true → es.countP (Event.sets c) = rs.length)

theorem toFree_dropLast (rs : List Registration) :
    toFree rs.dropLast ++ toFree [rs.getLastD .none] = toFree rs := by
  rcases List.eq_nil_or_concat rs with rfl | ⟨ss, r, rfl⟩
  · rfl
  · simp

theorem getElem?_cons_length (rs : List Registration) :
    (Registration.none :: rs)[rs.length]? = some (rs.getLastD .none) := by
  rcases List.eq_nil_or_concat rs with rfl | ⟨ss, r, rfl⟩
  · rfl
  · simp

variable {h₀ : Host} {rs : List Registration}

theorem InStep.fate (hi : InStep c h₀ rs h) (hf : Fate c h h') : InStep c h₀ rs h' := by
  obtain ⟨es, hes, hfreed, hnotices, hsets⟩ := hi.events
  obtain ⟨fs, hfs, hnotices', hcase⟩ := hf.events
  have hnext : ∀ x ∈ Event.notices c (0 + es.countP (Event.sets c)) fs,
      ∃ r, (Registration.none :: rs)[x.1]? = some r ∧ r.notifies = true ∧ r.data = x.2 := by
    intro x hx
    obtain ⟨hnotifies, rfl⟩ := hnotices' _ x hx
    cases hattached : (h.call c).attached with
    | false => exact absurd hnotifies (by simp [(hi.sound.givenUp hattached).1])
    | true =>
        refine ⟨(h.call c).registration, ?_, hnotifies, rfl⟩
        rw [hsets hattached, (hi.copies hattached).2, Nat.zero_add, getElem?_cons_length]
  refine ⟨hf.sound hi.sound, fun hattached' => ?_, es ++ fs,
    by rw [hfs, hes, List.append_assoc], ?_, fun x hx => ?_, fun hattached' => ?_⟩
  · rcases hcase with ⟨hattached, hregistration, -⟩ | ⟨-, hattached, -⟩
    · rw [hregistration, hf.kept]
      exact hi.copies (hattached ▸ hattached')
    · exact absurd (hattached.symm.trans hattached') Bool.false_ne_true
  · rw [List.filterMap_append, hfreed]
    rcases hcase with ⟨hattached, -, -, hfreed'⟩ | ⟨hattached, hattached', -, hfreed'⟩
    · rw [hfreed', List.append_nil, hattached]
    · rw [hfreed', if_pos hattached, if_neg (by simp [hattached']), (hi.copies hattached).2,
        toFree_dropLast]
  · rw [Event.notices_append, List.mem_append] at hx
    exact hx.elim (hnotices x) (hnext x)
  · rcases hcase with ⟨hattached, -, hsets', -⟩ | ⟨-, hattached, -⟩
    · rw [List.countP_append, hsets (hattached ▸ hattached'), hsets', Nat.add_zero]
    · exact absurd (hattached.symm.trans hattached') Bool.false_ne_true

/-- The library has the new functions and has freed the old data, and in the end the handle has
the new functions as well. -/
theorem InStep.registered (hi : InStep c h₀ rs h) (hattached : (h.call c).attached = true)
    {h₁ : Host} {es : List Event} (hlength : h₁.calls.length = h.calls.length)
    (hcall : h₁.call c = { h.call c with registration := r })
    (htrace : h₁.trace = h.trace ++ .notifySet c r.notifies :: es)
    (hnotices : ∀ n, Event.notices c n es = []) (hsets : es.countP (Event.sets c) = 0)
    (hfreed : es.filterMap (Event.freed? c) = toFree [(h.call c).registration])
    (hf : Fate c h₁ h') :
    InStep c h₀ (rs ++ [r]) ((modifyCall c fun call => { call with kept := r }).run h').2 := by
  obtain ⟨es₀, hes₀, hfreed₀, hnotices₀, hsets₀⟩ := hi.events
  obtain ⟨fs, hfs, hnotices', hcase⟩ := hf.events
  have hc : c < h'.calls.length := Nat.lt_of_lt_of_le (hlength ▸ hi.sound.exists_call) hf.calls
  have hlast := call_modifyCall_self hc fun call => { call with kept := r }
  have hlength' : ((modifyCall c fun call => { call with kept := r }).run h').2.calls.length =
      h'.calls.length := List.length_modify ..
  have hcount : (es₀ ++ .notifySet c r.notifies :: es).countP (Event.sets c) = rs.length + 1 := by
    rw [List.countP_append, List.countP_cons_of_pos (by simp [Event.sets]), hsets,
      hsets₀ hattached]
  rw [if_pos hattached] at hfreed₀
  simp only [hcall, hattached, true_and] at hnotices' hcase
  constructor
  case sound =>
    refine ⟨hlength' ▸ hc, ?_, ?_, ?_⟩
    · rw [hlast]
      exact hf.kind.trans (by rw [hcall]; exact hi.sound.native)
    · rw [hlast]
      rcases hcase with ⟨-, hregistration, -⟩ | ⟨-, hsilent, -⟩
      · exact fun hr => hregistration ▸ hr
      · exact fun _ => hsilent
    · rw [hlast]
      rcases hcase with ⟨hstays, -⟩ | ⟨-, hsilent, -⟩
      · exact fun hgone => absurd (hgone.symm.trans hstays) Bool.false_ne_true
      · exact fun _ => hsilent
  case copies =>
    rw [hlast]
    rcases hcase with ⟨-, hregistration, -⟩ | ⟨hgone, -⟩
    · exact fun _ => ⟨hregistration, by simp [hregistration]⟩
    · exact fun hstays => absurd (hgone.symm.trans hstays) Bool.false_ne_true
  case events =>
    refine ⟨es₀ ++ .notifySet c r.notifies :: es ++ fs, ?_, ?_, fun x hx => ?_, ?_⟩
    · rw [← List.append_assoc, ← List.append_assoc, ← hes₀, ← htrace, ← hfs]
      rfl
    · rw [hlast]
      have hold :
          (es₀ ++ .notifySet c r.notifies :: es).filterMap (Event.freed? c) = toFree rs := by
        rw [List.filterMap_append, List.filterMap_cons_none rfl, hfreed₀, hfreed,
          (hi.copies hattached).2, toFree_dropLast]
      rw [List.filterMap_append, hold]
      rcases hcase with ⟨hstays, -, -, hfreed'⟩ | ⟨hgone, -, hfreed'⟩
      · simp [hstays, hfreed']
      · simp [hgone, hfreed']
    · rw [Event.notices_append, Event.notices_append, Event.notices, hnotices, List.append_nil,
        List.mem_append, hcount, Nat.zero_add] at hx
      rcases hx with hx | hx
      · obtain ⟨s, hs, hnotifies⟩ := hnotices₀ x hx
        have hlt := (List.getElem?_eq_some_iff.mp hs).1
        exact ⟨s, (List.getElem?_append_left hlt).trans hs, hnotifies⟩
      · obtain ⟨hnotifies, rfl⟩ := hnotices' _ x hx
        exact ⟨r, by simp, hnotifies, rfl⟩
    · rw [hlast, List.countP_append, hcount]
      rcases hcase with ⟨-, -, hsets', -⟩ | ⟨hgone, -⟩
      · exact fun _ => by simp [hsets']
      · exact fun hstays => absurd (hgone.symm.trans hstays) Bool.false_ne_true

end

/-! ## The two copies -/

section

variable {c : CallId} {h h₀ : Host} {rs : List Registration} {r : Registration}

/-- The free functions of a session do nothing to the call. -/
theorem dealings_dropData (x : UserData) (h : Host) : Dealings c h ((dropData x).run h).2 := by
  cases x with
  | slot p => exact .apart (Nat.le_refl _) rfl (records_of_trace_eq rfl)
  | note x => exact .refl h

theorem Handling.setNotify (hh : Handling c h₀ rs h) (hattached : (h.call c).attached = true)
    (hok : ((Host.setNotify c r).run h).1 = true) :
    Handling c h₀ (rs ++ [r]) ((Host.setNotify c r).run h).2 :=
  hh.registered unanswered r hattached (fun _ => dealings_dropData _ _) hok

theorem dealings_unreference (hdetach : ((succeeds .setNotify).run h).1 = true) :
    Dealings c h ((Host.unreference c).run h).2 :=
  .unreference unanswered h (fun _ _ => hdetach) fun _ => dealings_dropData _ _

/-- The notify functions of a session that only make a note do nothing to the call. -/
theorem dealings_complete {x : Value} (hx : (h.call c).registration.data = .note x)
    (run : Reacting) : Dealings c h ((Host.complete run c).run h).2 :=
  .reply (registered run) h fun _ => hx ▸ .refl _

end

end DBusHost
