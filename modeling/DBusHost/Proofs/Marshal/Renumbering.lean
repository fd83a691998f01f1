import DBusHost.Proofs.Marshal.Asking

/-!
# Appending to a used message

Containers are numbered in the order in which they are opened, so what is written depends on
how many have been opened before, but only in these numbers.  `Desk.after d e` is the desk
that has what `d` has in its drafts and calls, followed by what `e` has, numbered on.

Every request does on such a desk what it does on the second part alone.  So appending to a
message does what it does to a message with the same body that nothing was opened in before.
-/

namespace DBusHost

/-! ## Numbering on -/

def Place.raise (n : Nat) : Place → Place
  | body => body
  | draft m => draft (n + m)

def Draft.raise (n : Nat) (d : Draft) : Draft := { d with parent := d.parent.raise n }

def PenCall.raise (n : Nat) : PenCall → PenCall
  | basic p type content => basic (p.raise n) type content
  | opened p k signature m => opened (p.raise n) k signature (n + m)
  | closed m => closed (n + m)
  | abandoned m => abandoned (n + m)

/-- The sheet with other drafts in front of its own. -/
def Sheet.behind (old : List Draft) (s : Sheet) : Sheet :=
  ⟨s.body, old ++ s.drafts.map (Draft.raise old.length)⟩

/-- The second desk, with the drafts and calls of the first one in front of its own. -/
def Desk.after (d e : Desk) : Desk where
  failures := e.failures
  sheet := e.sheet.behind d.sheet.drafts
  calls := d.calls ++ e.calls.map (PenCall.raise d.sheet.drafts.length)

namespace Sheet

variable (old : List Draft) (s : Sheet)

theorem getElem?_behind (n : Nat) :
    (s.behind old).drafts[old.length + n]? = s.drafts[n]?.map (Draft.raise old.length) := by
  simp [behind, List.getElem?_append_right]

theorem itemsAt_behind (p : Place) :
    (s.behind old).itemsAt (p.raise old.length) = s.itemsAt p := by
  cases p with
  | body => rfl
  | draft n =>
      simp only [itemsAt, Place.raise, getElem?_behind, Option.map_map]
      rfl

theorem modify_append_map {f g : Draft → Draft} (h : ∀ d, f (g d) = g (f d))
    (drafts : List Draft) (n : Nat) :
    (old ++ drafts.map g).modify (old.length + n) f = old ++ (drafts.modify n f).map g := by
  apply List.ext_getElem?
  intro i
  by_cases hi : i < old.length
  · have hne : old.length + n ≠ i := by omega
    rw [List.getElem?_modify_ne _ _ hne, List.getElem?_append_left hi,
      List.getElem?_append_left hi]
  · obtain ⟨m, rfl⟩ : ∃ m, i = old.length + m := ⟨i - old.length, by omega⟩
    by_cases hm : n = m
    · subst hm
      simp [List.getElem?_append_right, Function.comp_def, h]
    · simp [List.getElem?_append_right, hm]

theorem modifyItems_behind (p : Place) (f : List Item → List Item) :
    (s.behind old).modifyItems (p.raise old.length) f = (s.modifyItems p f).behind old := by
  cases p with
  | body => rfl
  | draft n =>
      simp only [modifyItems, behind, Place.raise, Sheet.mk.injEq, true_and]
      apply modify_append_map
      intro d
      rfl

theorem renew_behind (n : Nat) :
    (s.behind old).renew (old.length + n) = (s.renew n).behind old := by
  induction n using Nat.strongRecOn generalizing s with
  | ind n ih =>
      rw [renew, renew, getElem?_behind]
      cases hd : s.drafts[n]? with
      | none => rfl
      | some d =>
          simp only [Option.map_some, Draft.raise, Draft.item, modifyItems_behind]
          by_cases hstanding : d.standing.isEmpty = true
          · simp only [hstanding, if_true]
          cases hparent : d.parent with
          | body => simp only [hstanding, Place.raise]; rfl
          | draft m =>
              by_cases hm : m < n
              · have hlt : old.length + m < old.length + n := by omega
                simp only [hstanding, Place.raise, hm, hlt, if_true, ih m hm]
                rfl
              · have hge : ¬ old.length + m < old.length + n := by omega
                simp only [hstanding, Place.raise, hm, hge, if_false]
                rfl

theorem add_behind (p : Place) (item : Item) :
    (s.behind old).add (p.raise old.length) item = (s.add p item).behind old := by
  simp only [add, modifyItems_behind]
  cases p with
  | body => rfl
  | draft n => exact renew_behind old _ n

theorem openDraft_behind (p : Place) (k : ContainerKind) (signature : Option String) :
    (s.behind old).openDraft (p.raise old.length) k signature =
      (s.openDraft p k signature).behind old := by
  simp [behind, openDraft, Draft.raise]

theorem set_behind (n : Nat) (d : Draft) :
    (⟨s.body, (s.behind old).drafts.set (old.length + n) (d.raise old.length)⟩ : Sheet) =
      Sheet.behind old ⟨s.body, s.drafts.set n d⟩ := by
  simp [behind, List.map_set]

theorem close_behind (n : Nat) :
    (s.behind old).close (old.length + n) = (s.close n).behind old := by
  simp only [close, getElem?_behind]
  cases hd : s.drafts[n]? with
  | none => rfl
  | some d =>
      have hset := set_behind old s n
        { d with standing := d.standing ++ [(s.itemsAt d.parent).length] }
      simp only [Option.map_some, Draft.raise, Draft.item, itemsAt_behind] at hset ⊢
      exact (congrArg (fun s : Sheet => s.add _ _) hset).trans (add_behind old _ _ _)

end Sheet

/-! ## Requests on a desk with something in front -/

namespace Request

open Writing

variable {rs : List Request} {b e e' : Desk} {f : Fault}

theorem innermost_map (n : Nat) (stack : List Nat) :
    Place.innermost (stack.map (n + ·)) = (Place.innermost stack).raise n := by
  cases stack <;> rfl

/-- The outcome of a request, with another desk in front. -/
def outcomeAfter (b : Desk) (o : Except Fault (List Nat) × Desk) :
    Except Fault (List Nat) × Desk :=
  (o.1.map fun stack => stack.map (b.sheet.drafts.length + ·), b.after o.2)

/-- A native routine and what comes after it do the same with another desk in front, if what
comes after it does. -/
theorem run_call_bind_after {q : Routine} {w w' : Writing (List Nat)}
    (h : ∀ e, w'.run.run (b.after e) = outcomeAfter b (w.run.run e)) (e : Desk) :
    (Writing.call q >>= fun _ => w').run.run (b.after e) =
      outcomeAfter b ((Writing.call q >>= fun _ => w).run.run e) := by
  rcases hcall : Failures.call q e.failures with ⟨_ | _, fs⟩
  · rw [run_bind, run_bind, run_call_eq hcall, run_call_eq (d := b.after e) hcall]
    rfl
  · rw [run_bind, run_bind, run_call_eq hcall, run_call_eq (d := b.after e) hcall]
    exact h { e with failures := fs }

/-- A call and a change of the sheet are made behind what stands in front. -/
theorem after_call (b e : Desk) {s : Sheet} {s' : Sheet} (hs : s' = s.behind b.sheet.drafts)
    (c : PenCall) :
    (⟨e.failures, s', (b.after e).calls ++ [c.raise b.sheet.drafts.length]⟩ : Desk) =
      b.after ⟨e.failures, s, e.calls ++ [c]⟩ := by
  simp [Desk.after, hs]

/-- A request does the same with another desk in front. -/
theorem perform_after (b e : Desk) (r : Request) (stack : List Nat) :
    (r.perform (stack.map (b.sheet.drafts.length + ·))).run.run (b.after e) =
      outcomeAfter b ((r.perform stack).run.run e) := by
  cases r with
  | spell => exact run_call_bind_after (fun _ => rfl) e
  | basic type content =>
      simp only [perform, appendBasic, bind_assoc, innermost_map]
      refine run_call_bind_after (fun e => ?_) e
      have hadd := e.sheet.add_behind b.sheet.drafts (.innermost stack) (.basic type content)
      exact congrArg (Prod.mk _) (after_call b e hadd (.basic (.innermost stack) type content))
  | enter k signature =>
      simp only [perform, openContainer, bind_assoc, innermost_map]
      refine run_call_bind_after (fun e => ?_) e
      have hopen := e.sheet.openDraft_behind b.sheet.drafts (.innermost stack) k signature
      have hlength : (b.after e).sheet.drafts.length =
          b.sheet.drafts.length + e.sheet.drafts.length := by
        simp [Desk.after, Sheet.behind]
      have hcall := after_call b e hopen
        (.opened (.innermost stack) k signature e.sheet.drafts.length)
      rw [PenCall.raise, ← hlength] at hcall
      have hstack : (b.after e).sheet.drafts.length ::
            stack.map (b.sheet.drafts.length + ·) =
          (e.sheet.drafts.length :: stack).map (b.sheet.drafts.length + ·) := by
        rw [hlength, List.map_cons]
      exact congrArg₂ Prod.mk (congrArg Except.ok hstack) hcall
  | leave =>
      cases stack with
      | nil => rfl
      | cons n stack =>
          simp only [List.map_cons, perform, closeContainer, bind_assoc]
          refine run_call_bind_after (fun e => ?_) e
          have hclose := e.sheet.close_behind b.sheet.drafts n
          exact congrArg (Prod.mk _) (after_call b e hclose (.closed n))
  | stop f => rfl

theorem performAll_after (b e : Desk) (rs : List Request) (stack : List Nat) :
    (performAll rs (stack.map (b.sheet.drafts.length + ·))).run.run (b.after e) =
      outcomeAfter b ((performAll rs stack).run.run e) := by
  induction rs generalizing stack e with
  | nil => rfl
  | cons r rs ih =>
      rw [performAll, performAll, run_bind, run_bind, perform_after]
      rcases (r.perform stack).run.run e with ⟨f | stack₁, e₁⟩
      · rfl
      · exact ih e₁ stack₁

theorem unwinds_map (r : Request) (g : Nat → Nat) (stack : List Nat) :
    r.unwinds (stack.map g) = (r.unwinds stack).map g := by
  cases r with
  | leave => exact List.map_tail.symm
  | _ => rfl

/-- Giving up does the same with another desk in front. -/
theorem GivesUp.after_desk (h : GivesUp [] e f rs e') (b : Desk) :
    GivesUp [] (b.after e) f rs (b.after e') := by
  cases h with
  | @intro done rest inner next e₁ e₂ hdone hnext hinner =>
      rw [List.append_nil] at hdone hnext
      have hdone' := performAll_after b e done []
      have hnext' := perform_after b e₁ next inner
      rw [hdone] at hdone'
      rw [hnext] at hnext'
      have hcalls : (next.unwinds (inner.map (b.sheet.drafts.length + ·))).map
            PenCall.abandoned =
          ((next.unwinds inner).map PenCall.abandoned).map
            (PenCall.raise b.sheet.drafts.length) := by
        rw [unwinds_map, List.map_map, List.map_map]
        rfl
      have hgives : GivesUp [] (b.after e) f (done ++ next :: rest)
          { b.after e₂ with calls := (b.after e₂).calls ++
            (next.unwinds (inner.map (b.sheet.drafts.length + ·))).map .abandoned } :=
        .intro done rest (inner.map (b.sheet.drafts.length + ·))
          (by simpa [outcomeAfter, Except.map] using hdone')
          (by simpa [outcomeAfter, Except.map] using hnext') (by simpa using hinner)
      rw [hcalls] at hgives
      simpa [Desk.after] using hgives

end Request

namespace Marshal

open Request

/-- Appending on a desk with another one in front does what it does without. -/
theorem append_after (v : Validator) (signature x : Value) (b e : Desk) :
    (append v signature x).run.run (b.after e) =
      (((append v signature x).run.run e).1, b.after ((append v signature x).run.run e).2) := by
  obtain ⟨rs, -, hperforms⟩ := performs_append v signature x
  have hafter := hperforms (b.after e)
  have halone := hperforms e
  rcases hrun : (append v signature x).run.run e with ⟨f | _, e'⟩
  · rw [hrun] at halone
    have hgives := halone.after_desk b
    rcases hrun' : (append v signature x).run.run (b.after e) with ⟨f' | _, e''⟩
    · rw [hrun'] at hafter
      obtain ⟨rfl, rfl⟩ := hafter.unique hgives
      rfl
    · rw [hrun'] at hafter
      exact (hgives.not_performed hafter).elim
  · rw [hrun] at halone
    have hperformed := performAll_after b e rs []
    rw [halone] at hperformed
    rcases hrun' : (append v signature x).run.run (b.after e) with ⟨f' | _, e''⟩
    · rw [hrun'] at hafter
      exact (hafter.not_performed hperformed).elim
    · rw [hrun'] at hafter
      cases hafter.symm.trans hperformed
      rfl

/-- Appending to a message does what it does to one with the same body that nothing was opened
in before, with the containers numbered on. -/
theorem append_eq_after (v : Validator) (signature x : Value) (d : Desk) :
    (append v signature x).run.run d =
      (((append v signature x).run.run ⟨d.failures, .ofBody d.sheet.body, []⟩).1,
        d.after ((append v signature x).run.run ⟨d.failures, .ofBody d.sheet.body, []⟩).2) := by
  have hd : d = d.after ⟨d.failures, .ofBody d.sheet.body, []⟩ := by
    simp [Desk.after, Sheet.behind, Sheet.ofBody]
  have hafter := append_after v signature x d ⟨d.failures, .ofBody d.sheet.body, []⟩
  rwa [← hd] at hafter

end Marshal

end DBusHost
