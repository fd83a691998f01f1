import DBusHost.Proofs.Marshal.Offers
import DBusHost.Proofs.Marshal.Placement

/-!
# What writing asks for

Writing a value comes down to a list of requests, made one after another at the innermost
open container: to write a basic value, to open a container, to close the innermost one, to
have a type spelled out, or to stop with a fault.  `Asks v t x rs` lists the requests for a
value and a type without regard to what the native library makes of them.

The writing itself performs the requests in this order for as long as they succeed.  Once a
request fails it performs no other one; it only abandons the containers that are open by then,
from the innermost outwards.  The exception is a container that could not be closed: it is
left alone.
-/

namespace DBusHost

/-- A step of writing, made at the innermost open container. -/
inductive Request where
  /-- Have the text of a type spelled out. -/
  | spell
  | basic (type : Char) (content : Scalar)
  | enter (kind : ContainerKind) (signature : Option String)
  | leave
  /-- Go no further. -/
  | stop (f : Fault)

/-- The innermost of the open containers, which stand innermost first. -/
def Place.innermost : List Nat → Place
  | [] => .body
  | n :: _ => .draft n

namespace Request

open Writing

/-- Perform a request while some containers are open; the answer is which ones are then. -/
def perform : Request → List Nat → Writing (List Nat)
  | spell, stack => do
    Writing.call .signatureText
    return stack
  | basic type content, stack => do
    appendBasic (.innermost stack) type content
    return stack
  | enter kind signature, stack => do
    let n ← openContainer (.innermost stack) kind signature
    return n :: stack
  | leave, [] => return []
  | leave, n :: stack => do
    closeContainer n
    return stack
  | stop f, _ => throw f

def performAll : List Request → List Nat → Writing (List Nat)
  | [], stack => return stack
  | r :: rs, stack => do
    let stack ← r.perform stack
    performAll rs stack

/-- The containers that are to be abandoned after a request has failed: all open ones, but
not one that could not be closed. -/
def unwinds : Request → List Nat → List Nat
  | leave, stack => stack.tail
  | _, stack => stack

/-- While some containers are open, the requests before one are performed, and that one fails;
of what they opened, what is still open is abandoned. -/
inductive GivesUp (stack : List Nat) (d : Desk) (f : Fault) : List Request → Desk → Prop
  | intro (done rest : List Request) (inner : List Nat) {next : Request} {d₁ d₂ : Desk}
      (hdone : (performAll done stack).run.run d = (.ok (inner ++ stack), d₁))
      (hnext : (next.perform (inner ++ stack)).run.run d₁ = (.error f, d₂))
      (hinner : next = .leave → inner ≠ []) :
      GivesUp stack d f (done ++ next :: rest)
        { d₂ with calls := d₂.calls ++ (next.unwinds inner).map .abandoned }

variable {r : Request} {rs rs' : List Request} {stack stack' : List Nat} {d d' : Desk}
  {f : Fault} {w w' : Place → Writing Unit}

theorem performAll_cons_ok (h : (r.perform stack).run.run d = (.ok stack', d')) :
    (performAll (r :: rs) stack).run.run d = (performAll rs stack').run.run d' := by
  rw [performAll, run_bind, h]

theorem performAll_append_ok (h : (performAll rs stack).run.run d = (.ok stack', d')) :
    (performAll (rs ++ rs') stack).run.run d = (performAll rs' stack').run.run d' := by
  induction rs generalizing stack d with
  | nil =>
      cases h
      rfl
  | cons r rs ih =>
      rw [performAll, run_bind] at h
      rcases hr : (r.perform stack).run.run d with ⟨f | stack₁, d₁⟩
      · rw [hr] at h
        cases h
      · rw [hr] at h
        rw [List.cons_append, performAll_cons_ok hr, ih h]

theorem unwinds_append {inner : List Nat} (h : r = .leave → inner ≠ []) (outer : List Nat) :
    r.unwinds (inner ++ outer) = r.unwinds inner ++ outer := by
  cases r with
  | leave => exact List.tail_append_of_ne_nil (h rfl)
  | _ => rfl

/-- The first of some requests fails. -/
theorem GivesUp.head (h : (r.perform stack).run.run d = (.error f, d')) (hr : r ≠ .leave) :
    GivesUp stack d f (r :: rs) d' := by
  have hunwinds : r.unwinds [] = [] := by
    cases r <;> rfl
  have hgives := GivesUp.intro [] rs [] rfl h fun h => absurd h hr
  simpa [hunwinds] using hgives

theorem GivesUp.append (h : GivesUp stack d f rs d') (rs' : List Request) :
    GivesUp stack d f (rs ++ rs') d' := by
  cases h with
  | intro done rest inner hdone hnext hinner =>
      rw [List.append_assoc, List.cons_append]
      exact .intro _ _ _ hdone hnext hinner

theorem GivesUp.after {d₁ : Desk} (h : (performAll rs stack).run.run d = (.ok stack, d₁))
    (h' : GivesUp stack d₁ f rs' d') : GivesUp stack d f (rs ++ rs') d' := by
  cases h' with
  | intro done rest inner hdone hnext hinner =>
      rw [← List.append_assoc]
      exact .intro _ _ _ ((performAll_append_ok h).trans hdone) hnext hinner

/-- Requests inside a container fail, and the container itself is abandoned last. -/
theorem GivesUp.inside {k : ContainerKind} {signature : Option String} {n : Nat} {d₁ : Desk}
    (h : ((enter k signature).perform stack).run.run d = (.ok (n :: stack), d₁))
    (h' : GivesUp (n :: stack) d₁ f rs d') :
    GivesUp stack d f (enter k signature :: rs)
      { d' with calls := d'.calls ++ [.abandoned n] } := by
  cases h' with
  | intro done rest inner hdone hnext hinner =>
      have happend : inner ++ n :: stack = (inner ++ [n]) ++ stack := by simp
      rw [happend] at hdone hnext
      have hunwinds := unwinds_append hinner [n]
      have hgives := GivesUp.intro _ rest _ ((performAll_cons_ok h).trans hdone) hnext (by simp)
      simpa [hunwinds] using hgives

/-! ## At most one outcome -/

theorem performAll_stops {done rest : List Request} {next : Request} {d d₁ d₂ : Desk}
    (hdone : (performAll done stack).run.run d = (.ok stack', d₁))
    (hnext : (next.perform stack').run.run d₁ = (.error f, d₂)) :
    (performAll (done ++ next :: rest) stack).run.run d = (.error f, d₂) := by
  rw [performAll_append_ok hdone, performAll, run_bind, hnext]

/-- The requests that are performed before one fails are settled. -/
theorem performed_unique {done₁ done₂ rest₁ rest₂ : List Request} {next₁ next₂ : Request}
    {stack₁ stack₂ : List Nat} {f₁ f₂ : Fault} {d d₁ d₂ d₁' d₂' : Desk}
    (hdone₁ : (performAll done₁ stack).run.run d = (.ok stack₁, d₁))
    (hnext₁ : (next₁.perform stack₁).run.run d₁ = (.error f₁, d₁'))
    (hdone₂ : (performAll done₂ stack).run.run d = (.ok stack₂, d₂))
    (hnext₂ : (next₂.perform stack₂).run.run d₂ = (.error f₂, d₂'))
    (h : done₁ ++ next₁ :: rest₁ = done₂ ++ next₂ :: rest₂) : done₁ = done₂ := by
  obtain ⟨a, rfl, ha⟩ | ⟨a, rfl, ha⟩ := List.append_eq_append_iff.mp h
  · cases a with
    | nil => exact (List.append_nil _).symm
    | cons r a =>
        obtain ⟨rfl, -⟩ := List.cons.inj ha
        cases hdone₂.symm.trans (performAll_stops hdone₁ hnext₁)
  · cases a with
    | nil => exact List.append_nil _
    | cons r a =>
        obtain ⟨rfl, -⟩ := List.cons.inj ha
        cases hdone₁.symm.trans (performAll_stops hdone₂ hnext₂)

theorem GivesUp.unique {d d₁ d₂ : Desk} {f₁ f₂ : Fault} (h₁ : GivesUp [] d f₁ rs d₁)
    (h₂ : GivesUp [] d f₂ rs d₂) : f₁ = f₂ ∧ d₁ = d₂ := by
  cases h₁ with
  | intro done rest inner hdone hnext hinner =>
      generalize hrs : done ++ _ :: rest = rs at h₂
      cases h₂ with
      | intro done' rest' inner' hdone' hnext' hinner' =>
          obtain rfl := performed_unique hdone hnext hdone' hnext' hrs
          obtain ⟨rfl, rfl⟩ := List.cons.inj (List.append_cancel_left hrs)
          rw [List.append_nil] at hdone hdone' hnext hnext'
          cases hdone.symm.trans hdone'
          cases hnext.symm.trans hnext'
          exact ⟨rfl, rfl⟩

theorem GivesUp.not_performed {d'' : Desk} (h : GivesUp [] d f rs d')
    (h' : (performAll rs []).run.run d = (.ok stack, d'')) : False := by
  cases h with
  | intro done rest inner hdone hnext hinner =>
      cases h'.symm.trans (performAll_stops hdone hnext)

end Request

/-! ## Writings that perform requests -/

namespace Writing

open Request

/-- The writing performs the requests and leaves open what was open before, or it gives up. -/
def Performs (w : Place → Writing Unit) (rs : List Request) : Prop :=
  ∀ stack d, match (w (.innermost stack)).run.run d with
    | (.ok (), d') => (performAll rs stack).run.run d = (.ok stack, d')
    | (.error f, d') => GivesUp stack d f rs d'

variable {w w' : Place → Writing Unit} {rs rs' : List Request}

theorem performs_pure : Performs (fun _ => pure ()) [] := fun _ _ => rfl

theorem performs_throw (f : Fault) : Performs (fun _ => throw f) [.stop f] :=
  fun _ _ => .head rfl (by simp)

/-- A request that opens and closes nothing. -/
theorem performs_one {r : Request} (hr : r ≠ .leave)
    (h : ∀ stack, r.perform stack = do
      w (.innermost stack)
      return stack) : Performs w [r] := by
  intro stack d
  rcases hw : (w (.innermost stack)).run.run d with ⟨f | _, d'⟩
  · have hr' : (r.perform stack).run.run d = (.error f, d') := by
      rw [h, run_bind, hw]
    exact .head hr' hr
  · have hr' : (r.perform stack).run.run d = (.ok stack, d') := by
      rw [h, run_bind, hw]
      rfl
    exact performAll_cons_ok hr'

theorem performs_call : Performs (fun _ => call .signatureText) [.spell] :=
  performs_one (by simp) fun _ => rfl

theorem performs_appendBasic (type : Char) (content : Scalar) :
    Performs (fun p => appendBasic p type content) [.basic type content] :=
  performs_one (by simp) fun _ => rfl

theorem Performs.bind (h : Performs w rs) (h' : Performs w' rs') :
    Performs (fun p => do
      w p
      w' p) (rs ++ rs') := by
  intro stack d
  have hw := h stack d
  rw [run_bind]
  rcases hrun : (w (.innermost stack)).run.run d with ⟨f | _, d₁⟩
  · rw [hrun] at hw
    exact hw.append rs'
  rw [hrun] at hw
  have hw' := h' stack d₁
  rcases hrun' : (w' (.innermost stack)).run.run d₁ with ⟨f | _, d₂⟩
  · rw [hrun'] at hw'
    simpa only [hrun'] using hw'.after hw
  · rw [hrun'] at hw'
    simpa only [hrun'] using (performAll_append_ok hw).trans hw'

/-- A container is opened, filled and closed. -/
theorem Performs.inContainer (h : Performs w rs) (k : ContainerKind)
    (signature : Option String) :
    Performs (fun p => Writing.inContainer p k signature w)
      (.enter k signature :: (rs ++ [.leave])) := by
  intro stack d
  beta_reduce
  rw [Writing.inContainer, run_bind]
  rcases hopen : (openContainer (.innermost stack) k signature).run.run d with ⟨f | n, d₁⟩
  · have henter : ((Request.enter k signature).perform stack).run.run d = (.error f, d₁) := by
      rw [perform, run_bind, hopen]
    exact .head henter (by simp)
  have henter : ((Request.enter k signature).perform stack).run.run d =
      (.ok (n :: stack), d₁) := by
    rw [perform, run_bind, hopen]
    rfl
  have hw := h (n :: stack) d₁
  simp only [run_bind, run_tryCatch]
  rcases hfill : (w (.draft n)).run.run d₁ with ⟨f | _, d₂⟩
  · rw [show Place.innermost (n :: stack) = .draft n from rfl, hfill] at hw
    exact (hw.append _).inside henter
  rw [show Place.innermost (n :: stack) = .draft n from rfl, hfill] at hw
  rcases hclose : (closeContainer n).run.run d₂ with ⟨f | _, d₃⟩
  · have hleave : (Request.leave.perform (n :: stack)).run.run d₂ = (.error f, d₃) := by
      rw [perform, run_bind, hclose]
    have hgives := GivesUp.intro _ [] [n] ((performAll_cons_ok henter).trans hw) hleave
      (by simp)
    simpa [unwinds, hclose] using hgives
  · have hleave : (Request.leave.perform (n :: stack)).run.run d₂ = (.ok stack, d₃) := by
      rw [perform, run_bind, hclose]
      rfl
    simp only [hclose]
    rw [performAll_cons_ok henter, performAll_append_ok hw, performAll_cons_ok hleave]
    rfl

end Writing

end DBusHost
