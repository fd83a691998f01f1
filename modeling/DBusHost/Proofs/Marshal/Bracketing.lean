import DBusHost.Proofs.Marshal.Asking

/-!
# Containers are bracketed

The calls that appending makes are replayed on a stack of the open containers.  A basic value
and a new container have to be put into the innermost one, and only the innermost one can be
closed or abandoned.

The requests that are performed replay in this way and abandon nothing, and every container
has a number of its own.  A request that fails makes no call.  So whatever appending called
before it failed is well nested, and what it calls afterwards only abandons what is open.
-/

namespace DBusHost

/-! ## Replaying calls -/

namespace PenCall

/-- The container that a call opens. -/
def opened? : PenCall → Option Nat
  | opened _ _ _ n => some n
  | basic .. | closed _ | abandoned _ => none

def closed? : PenCall → Option Nat
  | closed n => some n
  | basic .. | opened .. | abandoned _ => none

def abandoned? : PenCall → Option Nat
  | abandoned n => some n
  | basic .. | opened .. | closed _ => none

/-- The open containers, innermost first, after a call, if it is made at the innermost one. -/
def replay : PenCall → List Nat → Option (List Nat)
  | basic p _ _, stack => if p = .innermost stack then some stack else none
  | opened p _ _ n, stack => if p = .innermost stack then some (n :: stack) else none
  | closed n, m :: stack => if n = m then some stack else none
  | abandoned n, m :: stack => if n = m then some stack else none
  | closed _, [] => none
  | abandoned _, [] => none

def replayAll : List PenCall → List Nat → Option (List Nat)
  | [], stack => some stack
  | c :: calls, stack => (c.replay stack).bind (replayAll calls)

theorem replayAll_append (calls rest : List PenCall) (stack : List Nat) :
    replayAll (calls ++ rest) stack = (replayAll calls stack).bind (replayAll rest) := by
  induction calls generalizing stack with
  | nil => rfl
  | cons c calls ih =>
      simp only [List.cons_append, replayAll]
      cases c.replay stack with
      | none => rfl
      | some stack' => exact ih stack'

/-- Open containers can be abandoned from the innermost outwards. -/
theorem replayAll_abandoned (stack : List Nat) :
    replayAll (stack.map abandoned) stack = some [] := by
  induction stack with
  | nil => rfl
  | cons n stack ih => simpa [replayAll, replay] using ih

/-- A call takes the containers that are open before it to those that are open after it. -/
theorem perm_of_replay {c : PenCall} {stack stack' : List Nat} (h : c.replay stack = some stack') :
    (c.opened?.toList ++ stack).Perm (c.closed?.toList ++ c.abandoned?.toList ++ stack') := by
  cases c with
  | basic p type content =>
      by_cases hp : p = .innermost stack
      · obtain rfl : stack = stack' := by simpa [replay, hp] using h
        exact .refl _
      · simp [replay, hp] at h
  | opened p k signature n =>
      by_cases hp : p = .innermost stack
      · obtain rfl : n :: stack = stack' := by simpa [replay, hp] using h
        exact .refl _
      · simp [replay, hp] at h
  | closed n | abandoned n =>
      cases stack with
      | nil => simp [replay] at h
      | cons m stack =>
          obtain ⟨rfl, rfl⟩ : n = m ∧ stack = stack' := by simpa [replay] using h
          exact .refl _

/-- What is opened by calls is closed or abandoned by them or still open. -/
theorem perm_of_replayAll {calls : List PenCall} {stack stack' : List Nat}
    (h : replayAll calls stack = some stack') :
    (calls.filterMap opened? ++ stack).Perm
      (calls.filterMap closed? ++ calls.filterMap abandoned? ++ stack') := by
  induction calls generalizing stack with
  | nil =>
      obtain rfl : stack = stack' := by simpa [replayAll] using h
      exact .refl _
  | cons c calls ih =>
      obtain ⟨stack₁, hc, hcalls⟩ := Option.bind_eq_some_iff.mp h
      have hfirst := perm_of_replay hc
      have hrest := ih hcalls
      rw [List.perm_iff_count] at hfirst hrest ⊢
      have hcons : ∀ g : PenCall → Option Nat,
          (c :: calls).filterMap g = (g c).toList ++ calls.filterMap g := by
        intro g
        cases hg : g c <;> simp [hg]
      intro n
      have hn := hfirst n
      have hn' := hrest n
      simp only [hcons, List.count_append] at hn hn' ⊢
      omega

end PenCall

/-- Calls that are replayed from some open containers to others abandon none, and each
container they open has a number of its own. -/
structure Nested (calls : List PenCall) (stack stack' : List Nat) : Prop where
  replays : PenCall.replayAll calls stack = some stack'
  keeps : calls.filterMap PenCall.abandoned? = []
  fresh : (calls.filterMap PenCall.opened?).Nodup

/-- Each container that is opened by nested calls is closed or still open. -/
theorem Nested.perm {calls : List PenCall} {stack stack' : List Nat}
    (h : Nested calls stack stack') :
    (calls.filterMap PenCall.opened? ++ stack).Perm
      (calls.filterMap PenCall.closed? ++ stack') := by
  simpa [h.keeps] using PenCall.perm_of_replayAll h.replays

/-! ## Numbers of containers -/

namespace Sheet

@[simp] theorem length_drafts_modifyItems (s : Sheet) (p : Place) (f : List Item → List Item) :
    (s.modifyItems p f).drafts.length = s.drafts.length := by
  cases p <;> simp [modifyItems]

@[simp] theorem length_drafts_renew (s : Sheet) (n : Nat) :
    (s.renew n).drafts.length = s.drafts.length := by
  induction n using Nat.strongRecOn generalizing s with
  | ind n ih =>
      rw [renew]
      cases s.drafts[n]? with
      | none => rfl
      | some d =>
          by_cases hstanding : d.standing.isEmpty = true
          · simp [hstanding]
          · cases hparent : d.parent with
            | body => simp [hstanding, hparent]
            | draft m =>
                by_cases hm : m < n
                · simp [hstanding, hparent, hm, ih m hm]
                · simp [hstanding, hparent, hm]

@[simp] theorem length_drafts_add (s : Sheet) (p : Place) (item : Item) :
    (s.add p item).drafts.length = s.drafts.length := by
  cases p <;> simp [add]

@[simp] theorem length_drafts_close (s : Sheet) (n : Nat) :
    (s.close n).drafts.length = s.drafts.length := by
  unfold close
  split <;> simp

@[simp] theorem length_drafts_openDraft (s : Sheet) (p : Place) (k : ContainerKind)
    (signature : Option String) :
    (s.openDraft p k signature).drafts.length = s.drafts.length + 1 := by
  simp [openDraft]

end Sheet

/-- From one desk to another the calls are made and well nested, and the containers they open
are numbered on. -/
structure Desk.Nests (d d' : Desk) (made : List PenCall) (stack stack' : List Nat) : Prop where
  calls : d'.calls = d.calls ++ made
  nested : Nested made stack stack'
  le_length : d.sheet.drafts.length ≤ d'.sheet.drafts.length
  numbers : ∀ n ∈ made.filterMap PenCall.opened?,
    d.sheet.drafts.length ≤ n ∧ n < d'.sheet.drafts.length

namespace Desk

variable {d d' d'' : Desk} {made made' : List PenCall} {stack stack' stack'' : List Nat}

theorem nests_self (d : Desk) (stack : List Nat) : d.Nests d [] stack stack :=
  ⟨by simp, ⟨rfl, rfl, by simp⟩, Nat.le_refl _, by simp⟩

theorem Nests.trans (h : d.Nests d' made stack stack')
    (h' : d'.Nests d'' made' stack' stack'') :
    d.Nests d'' (made ++ made') stack stack'' := by
  have hreplays : PenCall.replayAll (made ++ made') stack = some stack'' := by
    rw [PenCall.replayAll_append, h.nested.replays, Option.bind_some, h'.nested.replays]
  have hkeeps : (made ++ made').filterMap PenCall.abandoned? = [] := by
    rw [List.filterMap_append, h.nested.keeps, h'.nested.keeps]
    rfl
  have hfresh : ((made ++ made').filterMap PenCall.opened?).Nodup := by
    rw [List.filterMap_append]
    refine List.nodup_append.mpr ⟨h.nested.fresh, h'.nested.fresh, fun n hn m hm => ?_⟩
    have hlt := (h.numbers n hn).2
    have hle := (h'.numbers m hm).1
    omega
  refine ⟨by rw [h'.calls, h.calls, List.append_assoc], ⟨hreplays, hkeeps, hfresh⟩,
    Nat.le_trans h.le_length h'.le_length, fun n hn => ?_⟩
  rw [List.filterMap_append, List.mem_append] at hn
  obtain hn | hn := hn
  · obtain ⟨hle, hlt⟩ := h.numbers n hn
    exact ⟨hle, Nat.lt_of_lt_of_le hlt h'.le_length⟩
  · obtain ⟨hle, hlt⟩ := h'.numbers n hn
    exact ⟨Nat.le_trans h.le_length hle, hlt⟩

end Desk

namespace Request

open Writing

variable {r : Request} {rs : List Request} {stack stack' : List Nat} {d d' : Desk} {f : Fault}

/-- A request fails and does nothing but count a routine, or it makes at most one call, at the
innermost open container.  Closing fails only if the native routine does. -/
theorem run_perform (r : Request) (stack : List Nat) (d : Desk) :
    (∃ f fs, (r.perform stack).run.run d = (.error f, { d with failures := fs }) ∧
      (r = .leave → f = .noMemory .closeContainer ∧ stack ≠ [])) ∨
    ∃ made stack' d', (r.perform stack).run.run d = (.ok stack', d') ∧
      d.Nests d' made stack stack' := by
  cases r with
  | spell =>
      simp only [perform, run_bind]
      obtain ⟨fs, hrun | hrun⟩ := run_call .signatureText d
      · exact .inl ⟨_, fs, by rw [hrun], by simp⟩
      · refine .inr ⟨[], stack, { d with failures := fs }, by rw [hrun]; rfl, ?_⟩
        exact ⟨by simp, ⟨rfl, rfl, by simp⟩, Nat.le_refl _, by simp⟩
  | basic type content =>
      simp only [perform, run_bind]
      obtain ⟨fs, hrun | hrun⟩ := run_appendBasic (.innermost stack) type content d
      · exact .inl ⟨_, fs, by rw [hrun], by simp⟩
      · refine .inr ⟨[.basic (.innermost stack) type content], stack, _, by rw [hrun]; rfl, ?_⟩
        refine ⟨rfl, ⟨?_, rfl, List.nodup_nil⟩, by simp, by simp [PenCall.opened?]⟩
        simp [PenCall.replayAll, PenCall.replay]
  | enter k signature =>
      simp only [perform, run_bind]
      obtain ⟨fs, hrun | hrun⟩ := run_openContainer (.innermost stack) k signature d
      · exact .inl ⟨_, fs, by rw [hrun], by simp⟩
      · refine .inr ⟨[.opened (.innermost stack) k signature d.sheet.drafts.length],
          d.sheet.drafts.length :: stack, _, by rw [hrun]; rfl, ?_⟩
        have hnodup : [d.sheet.drafts.length].Nodup := by simp
        refine ⟨rfl, ⟨?_, rfl, hnodup⟩, by simp, by simp [PenCall.opened?]⟩
        simp [PenCall.replayAll, PenCall.replay]
  | leave =>
      cases stack with
      | nil => exact .inr ⟨[], [], d, rfl, d.nests_self []⟩
      | cons n stack =>
          simp only [perform, run_bind]
          obtain ⟨fs, hrun | hrun⟩ := run_closeContainer n d
          · exact .inl ⟨_, fs, by rw [hrun], by simp⟩
          · refine .inr ⟨[.closed n], stack, _, by rw [hrun]; rfl, ?_⟩
            refine ⟨rfl, ⟨?_, rfl, List.nodup_nil⟩, by simp, by simp [PenCall.opened?]⟩
            simp [PenCall.replayAll, PenCall.replay]
  | stop f => exact .inl ⟨f, d.failures, rfl, by simp⟩

theorem nests_performAll (h : (performAll rs stack).run.run d = (.ok stack', d')) :
    ∃ made, d.Nests d' made stack stack' := by
  induction rs generalizing stack d with
  | nil =>
      cases h
      exact ⟨[], Desk.nests_self _ _⟩
  | cons r rs ih =>
      obtain ⟨f, fs, hr, -⟩ | ⟨made, stack₁, d₁, hr, hmade⟩ := r.run_perform stack d
      · rw [performAll, run_bind, hr] at h
        cases h
      · rw [performAll_cons_ok hr] at h
        obtain ⟨made', hmade'⟩ := ih h
        exact ⟨made ++ made', hmade.trans hmade'⟩

end Request

namespace Marshal

/-- Whatever is appended and whatever fails, the calls that are made are well nested.

If appending succeeds, it has made all its requests, and every container that was opened was
closed and none abandoned.  If it fails, the requests before some request were performed and
that one failed.  After that, the only calls are to abandon the containers that were still
open, each once and the innermost first; but if it was a container that could not be closed,
that one is left alone. -/
theorem append_bracketed (v : Validator) (signature x : Value) (d : Desk) :
    ∃ rs, AsksToAppend v signature x rs ∧
      match (append v signature x).run.run d with
      | (.ok (), d') => (Request.performAll rs []).run.run d = (.ok [], d') ∧
          ∃ calls, d'.calls = d.calls ++ calls ∧ Nested calls [] [] ∧
            (calls.filterMap PenCall.opened?).Perm (calls.filterMap PenCall.closed?)
      | (.error f, d') => ∃ done next rest stack d₁ fs calls,
          rs = done ++ next :: rest ∧
          (Request.performAll done []).run.run d = (.ok stack, d₁) ∧
          d₁.calls = d.calls ++ calls ∧ Nested calls [] stack ∧
          (calls.filterMap PenCall.opened?).Perm (calls.filterMap PenCall.closed? ++ stack) ∧
          (next.perform stack).run.run d₁ = (.error f, { d₁ with failures := fs }) ∧
          (next = .leave → f = .noMemory .closeContainer ∧ stack ≠ []) ∧
          d' = ⟨fs, d₁.sheet,
            d.calls ++ calls ++ (next.unwinds stack).map PenCall.abandoned⟩ ∧
          PenCall.replayAll ((next.unwinds stack).map PenCall.abandoned)
            (next.unwinds stack) = some [] := by
  obtain ⟨rs, hasks, hperforms⟩ := performs_append v signature x
  have hrun := hperforms d
  refine ⟨rs, hasks, ?_⟩
  rcases happend : (append v signature x).run.run d with ⟨f | _, d'⟩
  · rw [happend] at hrun
    cases hrun with
    | @intro done rest stack next d₁ d₂ hdone hnext hinner =>
        rw [List.append_nil] at hdone hnext
        obtain ⟨calls, hcalls⟩ := Request.nests_performAll hdone
        obtain ⟨f', fs, hfails, hleave⟩ | ⟨_, _, _, hdoes, _⟩ := next.run_perform stack d₁
        · cases hfails.symm.trans hnext
          refine ⟨done, next, rest, stack, d₁, fs, calls, rfl, hdone, hcalls.calls,
            hcalls.nested, by simpa using hcalls.nested.perm, hfails, hleave, ?_,
            PenCall.replayAll_abandoned _⟩
          simp only [hcalls.calls]
        · cases hdoes.symm.trans hnext
  · rw [happend] at hrun
    obtain ⟨calls, hcalls⟩ := Request.nests_performAll hrun
    exact ⟨hrun, calls, hcalls.calls, hcalls.nested, by simpa using hcalls.nested.perm⟩

end Marshal

end DBusHost
