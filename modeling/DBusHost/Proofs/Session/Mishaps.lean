import DBusHost.Session.Script
import Mathlib.Algebra.GroupWithZero.Nat
import Mathlib.Data.List.Forall2

/-!
# Handlers that raise where they returned

A mishap makes a handler raise an exception after the last of its actions, so that it raises where
it would have returned.  `Alike` relates what is left of a script to the same with a mishap: the
handlers of both have the same identities and the same actions, but those of the one that has the
mishap end in one more.

`Script.raising` gives the mishap to one handler of a session, which is told by its position.
-/

namespace DBusHost

/-- A handler raises an exception of a class, with one text, after the last of its actions. -/
structure Mishap where
  /-- The identity of the handler. -/
  handler : String
  /-- The identities of the handlers that have no mishap. -/
  others : List String
  className : String
  text : String

/-- How a run of a handler ends, and how it ends if there is the mishap.  An exception that the
handler raises on the way to its last action is raised all the same. -/
def Mishap.Ends (m : Mishap) (id : String) (raised raised' : Option String) : Prop :=
  (id ∈ m.others ∧ raised' = raised) ∨
    (id = m.handler ∧ raised' = some (raised.getD (raisedClass m.className m.text)))

/-! ## What is left of a script -/

mutual

/-- The second reaction is the first one with the mishap. -/
inductive Reaction.Alike (m : Mishap) : Reaction → Reaction → Prop
  | absent : Reaction.Alike m .absent .absent
  | inert : Reaction.Alike m .inert .inert
  | handler {id : String} {actions actions' : List Action} (hid : id ∈ m.others)
      (h : Action.AllAlike m actions actions') :
      Reaction.Alike m (.handler id actions) (.handler id actions')
  | mishap {actions actions' : List Action} (h : Action.AllAlike m actions actions') :
      Reaction.Alike m (.handler m.handler actions)
        (.handler m.handler (actions' ++ [.raise m.className m.text]))

inductive Action.Alike (m : Mishap) : Action → Action → Prop
  | raise (className text : String) : Action.Alike m (.raise className text) (.raise className text)
  | raiseIfError : Action.Alike m .raiseIfError .raiseIfError
  | keep (name : String) : Action.Alike m (.keep name) (.keep name)
  | step {s s' : Step} (h : Step.Alike m s s') : Action.Alike m (.step s) (.step s')

inductive Action.AllAlike (m : Mishap) : List Action → List Action → Prop
  | nil : Action.AllAlike m [] []
  | cons {a a' : Action} {actions actions' : List Action} (h : Action.Alike m a a')
      (hs : Action.AllAlike m actions actions') :
      Action.AllAlike m (a :: actions) (a' :: actions')

inductive Step.Alike (m : Mishap) : Step → Step → Prop
  | message (s : MessageStep) : Step.Alike m (.message s) (.message s)
  | iterator (s : IteratorStep) : Step.Alike m (.iterator s) (.iterator s)
  | call (s : CallStep) : Step.Alike m (.call s) (.call s)
  | connection (s : ConnectionStep) : Step.Alike m (.connection s) (.connection s)
  | thing (s : ThingStep) : Step.Alike m (.thing s) (.thing s)
  | expect (name : String) {r r' : Reaction} (reply : Option Message) (accepts : Bool)
      (h : Reaction.Alike m r r') :
      Step.Alike m (.expect name r reply accepts) (.expect name r' reply accepts)
  | request (name connection : String) (message : Subject) {r r' : Reaction}
      (reply : Option Message) (timeout : Option Recipe) (h : Reaction.Alike m r r') :
      Step.Alike m (.request name connection message r reply timeout)
        (.request name connection message r' reply timeout)

end

/-- The second steps are the first ones with the mishap. -/
abbrev Step.AllAlike (m : Mishap) : List Step → List Step → Prop := List.Forall₂ (Step.Alike m)

section

variable {m : Mishap}

theorem Reaction.Alike.id? {r r' : Reaction} (h : Reaction.Alike m r r') : r'.id? = r.id? := by
  cases h <;> rfl

theorem Action.listHandlers_append_raise (actions : List Action) (className text : String) :
    Action.listHandlers (actions ++ [.raise className text]) = Action.listHandlers actions := by
  induction actions with
  | nil => rfl
  | cons a rest ih => simp only [List.cons_append, Action.listHandlers, ih]

mutual

/-- With a mishap there are as many handlers as without. -/
theorem Reaction.Alike.handlers : {r r' : Reaction} → Reaction.Alike m r r' →
    r'.handlers = r.handlers
  | _, _, .absent => rfl
  | _, _, .inert => rfl
  | _, _, .handler _ h => by simp only [Reaction.handlers, h.listHandlers]
  | _, _, .mishap h => by
      simp only [Reaction.handlers, Action.listHandlers_append_raise, h.listHandlers]

theorem Action.Alike.handlers : {a a' : Action} → Action.Alike m a a' → a'.handlers = a.handlers
  | _, _, .raise _ _ => rfl
  | _, _, .raiseIfError => rfl
  | _, _, .keep _ => rfl
  | _, _, .step h => by simp only [Action.handlers, h.handlers]

theorem Action.AllAlike.listHandlers : {actions actions' : List Action} →
    Action.AllAlike m actions actions' →
    Action.listHandlers actions' = Action.listHandlers actions
  | _, _, .nil => rfl
  | _, _, .cons h hs => by simp only [Action.listHandlers, h.handlers, hs.listHandlers]

theorem Step.Alike.handlers : {s s' : Step} → Step.Alike m s s' → s'.handlers = s.handlers
  | _, _, .message _ => rfl
  | _, _, .iterator _ => rfl
  | _, _, .call _ => rfl
  | _, _, .connection _ => rfl
  | _, _, .thing _ => rfl
  | _, _, .expect _ _ _ h => by simp only [Step.handlers, h.handlers]
  | _, _, .request _ _ _ _ _ h => by simp only [Step.handlers, h.handlers]

end

/-! ## How much there is of it -/

mutual

/-- The number of actions in a reaction, those of nested steps included. -/
def Reaction.extent : Reaction → Nat
  | .absent | .inert => 0
  | .handler _ actions => Action.listExtent actions

def Action.extent : Action → Nat
  | .raise .. | .raiseIfError | .keep _ => 1
  | .step s => 1 + s.extent

def Action.listExtent : List Action → Nat
  | [] => 0
  | a :: rest => a.extent + Action.listExtent rest

def Step.extent : Step → Nat
  | .expect _ r _ _ => r.extent
  | .request _ _ _ r _ _ => r.extent
  | .message _ | .iterator _ | .call _ | .connection _ | .thing _ => 0

end

theorem Action.listExtent_append_raise (actions : List Action) (className text : String) :
    Action.listExtent (actions ++ [.raise className text]) = Action.listExtent actions + 1 := by
  induction actions with
  | nil => rfl
  | cons a rest ih => simp only [List.cons_append, Action.listExtent, ih, Nat.add_assoc]

mutual

/-- With a mishap there are not less actions than without. -/
theorem Reaction.Alike.extent_le : {r r' : Reaction} → Reaction.Alike m r r' → r.extent ≤ r'.extent
  | _, _, .absent => Nat.le_refl _
  | _, _, .inert => Nat.le_refl _
  | _, _, .handler _ h => h.listExtent_le
  | _, _, .mishap h => by
      simp only [Reaction.extent, Action.listExtent_append_raise]
      exact Nat.le_succ_of_le h.listExtent_le

theorem Action.Alike.extent_le : {a a' : Action} → Action.Alike m a a' → a.extent ≤ a'.extent
  | _, _, .raise _ _ => Nat.le_refl _
  | _, _, .raiseIfError => Nat.le_refl _
  | _, _, .keep _ => Nat.le_refl _
  | _, _, .step h => Nat.add_le_add_left h.extent_le 1

theorem Action.AllAlike.listExtent_le : {actions actions' : List Action} →
    Action.AllAlike m actions actions' → Action.listExtent actions ≤ Action.listExtent actions'
  | _, _, .nil => Nat.le_refl _
  | _, _, .cons h hs => Nat.add_le_add h.extent_le hs.listExtent_le

theorem Step.Alike.extent_le : {s s' : Step} → Step.Alike m s s' → s.extent ≤ s'.extent
  | _, _, .message _ => Nat.le_refl _
  | _, _, .iterator _ => Nat.le_refl _
  | _, _, .call _ => Nat.le_refl _
  | _, _, .connection _ => Nat.le_refl _
  | _, _, .thing _ => Nat.le_refl _
  | _, _, .expect _ _ _ h => h.extent_le
  | _, _, .request _ _ _ _ _ h => h.extent_le

end

end

/-! ## The handlers of a session -/

mutual

/-- The identities of the handlers in a reaction: its own and then those of nested steps. -/
def Reaction.handlerIds : Reaction → List String
  | .absent | .inert => []
  | .handler id actions => id :: Action.listHandlerIds actions

def Action.handlerIds : Action → List String
  | .raise .. | .raiseIfError | .keep _ => []
  | .step s => s.handlerIds

def Action.listHandlerIds : List Action → List String
  | [] => []
  | a :: rest => a.handlerIds ++ Action.listHandlerIds rest

def Step.handlerIds : Step → List String
  | .expect _ r _ _ => r.handlerIds
  | .request _ _ _ r _ _ => r.handlerIds
  | .message _ | .iterator _ | .call _ | .connection _ | .thing _ => []

end

mutual

/-- The handler at a position raises an exception after the last of its actions.  Handlers are
counted in the order of `handlerIds`. -/
def Reaction.raising (className text : String) : Reaction → Nat → Reaction
  | .absent, _ => .absent
  | .inert, _ => .inert
  | .handler id actions, 0 => .handler id (actions ++ [.raise className text])
  | .handler id actions, k + 1 => .handler id (Action.listRaising className text actions k)

def Action.raising (className text : String) : Action → Nat → Action
  | .step s, k => .step (s.raising className text k)
  | .raise c t, _ => .raise c t
  | .raiseIfError, _ => .raiseIfError
  | .keep name, _ => .keep name

def Action.listRaising (className text : String) : List Action → Nat → List Action
  | [], _ => []
  | a :: rest, k =>
    if k < a.handlerIds.length then a.raising className text k :: rest
    else a :: Action.listRaising className text rest (k - a.handlerIds.length)

def Step.raising (className text : String) : Step → Nat → Step
  | .expect name r reply accepts, k => .expect name (r.raising className text k) reply accepts
  | .request name connection message r reply timeout, k =>
    .request name connection message (r.raising className text k) reply timeout
  | .message s, _ => .message s
  | .iterator s, _ => .iterator s
  | .call s, _ => .call s
  | .connection s, _ => .connection s
  | .thing s, _ => .thing s

end

def Step.listRaising (className text : String) : List Step → Nat → List Step
  | [], _ => []
  | s :: rest, k =>
    if k < s.handlerIds.length then s.raising className text k :: rest
    else s :: Step.listRaising className text rest (k - s.handlerIds.length)

namespace Script

/-- The identities of all handlers of a session, each one before those of its own steps. -/
def handlerIds (s : Script) : List String := s.steps.flatMap Step.handlerIds

/-- The session in which one handler raises an exception after the last of its actions. -/
def raising (s : Script) (className text : String) (k : Nat) : Script :=
  { s with steps := Step.listRaising className text s.steps k }

end Script

section

variable {m : Mishap}

mutual

/-- Handlers that have no mishap stay as they are. -/
theorem Reaction.alike_self : (r : Reaction) → (∀ id ∈ r.handlerIds, id ∈ m.others) →
    Reaction.Alike m r r
  | .absent, _ => .absent
  | .inert, _ => .inert
  | .handler id actions, h =>
      .handler (h id (by simp [Reaction.handlerIds]))
        (Action.allAlike_self actions fun i hi => h i (by simp [Reaction.handlerIds, hi]))

theorem Action.alike_self : (a : Action) → (∀ id ∈ a.handlerIds, id ∈ m.others) →
    Action.Alike m a a
  | .raise c t, _ => .raise c t
  | .raiseIfError, _ => .raiseIfError
  | .keep name, _ => .keep name
  | .step s, h => .step (Step.alike_self s h)

theorem Action.allAlike_self : (actions : List Action) →
    (∀ id ∈ Action.listHandlerIds actions, id ∈ m.others) → Action.AllAlike m actions actions
  | [], _ => .nil
  | a :: rest, h =>
      .cons (Action.alike_self a fun i hi => h i (by simp [Action.listHandlerIds, hi]))
        (Action.allAlike_self rest fun i hi => h i (by simp [Action.listHandlerIds, hi]))

theorem Step.alike_self : (s : Step) → (∀ id ∈ s.handlerIds, id ∈ m.others) → Step.Alike m s s
  | .message s, _ => .message s
  | .iterator s, _ => .iterator s
  | .call s, _ => .call s
  | .connection s, _ => .connection s
  | .thing s, _ => .thing s
  | .expect name r reply accepts, h => .expect name reply accepts (Reaction.alike_self r h)
  | .request name connection message r reply timeout, h =>
      .request name connection message reply timeout (Reaction.alike_self r h)

end

/-- The position is that of the handler that has the mishap. -/
structure Mishap.At (m : Mishap) (ids : List String) (k : Nat) : Prop where
  handler : ids[k]? = some m.handler
  others : ∀ id ∈ ids.eraseIdx k, id ∈ m.others

namespace Mishap.At

variable {ids ids' : List String} {k : Nat}

theorem left (h : m.At (ids ++ ids') k) (hk : k < ids.length) :
    m.At ids k ∧ ∀ id ∈ ids', id ∈ m.others := by
  obtain ⟨hhandler, hothers⟩ := h
  rw [List.getElem?_append_left hk] at hhandler
  rw [List.eraseIdx_append_of_lt_length hk] at hothers
  exact ⟨⟨hhandler, fun id hid => hothers id (List.mem_append_left _ hid)⟩,
    fun id hid => hothers id (List.mem_append_right _ hid)⟩

theorem right (h : m.At (ids ++ ids') k) (hk : ¬ k < ids.length) :
    (∀ id ∈ ids, id ∈ m.others) ∧ m.At ids' (k - ids.length) := by
  obtain ⟨hhandler, hothers⟩ := h
  rw [List.getElem?_append_right (Nat.le_of_not_lt hk)] at hhandler
  rw [List.eraseIdx_append_of_length_le (Nat.le_of_not_lt hk)] at hothers
  exact ⟨fun id hid => hothers id (List.mem_append_left _ hid),
    hhandler, fun id hid => hothers id (List.mem_append_right _ hid)⟩

theorem head {id : String} (h : m.At (id :: ids) 0) :
    id = m.handler ∧ ∀ id ∈ ids, id ∈ m.others :=
  ⟨Option.some.inj h.handler, h.others⟩

theorem tail {id : String} (h : m.At (id :: ids) (k + 1)) : id ∈ m.others ∧ m.At ids k :=
  ⟨h.others id (by simp), h.handler, fun i hi => h.others i (by simp [hi])⟩

end Mishap.At

mutual

theorem Reaction.alike_raising : (r : Reaction) → (k : Nat) → m.At r.handlerIds k →
    Reaction.Alike m r (r.raising m.className m.text k)
  | .absent, _, _ => .absent
  | .inert, _, _ => .inert
  | .handler id actions, 0, h => by
      obtain ⟨rfl, hothers⟩ := h.head
      exact .mishap (Action.allAlike_self actions hothers)
  | .handler id actions, k + 1, h =>
      .handler h.tail.1 (Action.allAlike_raising actions k h.tail.2)

theorem Action.alike_raising : (a : Action) → (k : Nat) → m.At a.handlerIds k →
    Action.Alike m a (a.raising m.className m.text k)
  | .raise c t, _, _ => .raise c t
  | .raiseIfError, _, _ => .raiseIfError
  | .keep name, _, _ => .keep name
  | .step s, k, h => .step (Step.alike_raising s k h)

theorem Action.allAlike_raising : (actions : List Action) → (k : Nat) →
    m.At (Action.listHandlerIds actions) k →
    Action.AllAlike m actions (Action.listRaising m.className m.text actions k)
  | [], _, _ => .nil
  | a :: rest, k, h => by
      simp only [Action.listRaising]
      split
      case isTrue hk =>
        exact .cons (Action.alike_raising a k (h.left hk).1)
          (Action.allAlike_self rest (h.left hk).2)
      case isFalse hk =>
        exact .cons (Action.alike_self a (h.right hk).1)
          (Action.allAlike_raising rest _ (h.right hk).2)

theorem Step.alike_raising : (s : Step) → (k : Nat) → m.At s.handlerIds k →
    Step.Alike m s (s.raising m.className m.text k)
  | .message s, _, _ => .message s
  | .iterator s, _, _ => .iterator s
  | .call s, _, _ => .call s
  | .connection s, _, _ => .connection s
  | .thing s, _, _ => .thing s
  | .expect name r reply accepts, k, h => .expect name reply accepts (Reaction.alike_raising r k h)
  | .request name connection message r reply timeout, k, h =>
      .request name connection message reply timeout (Reaction.alike_raising r k h)

end

theorem Step.allAlike_self {steps : List Step}
    (h : ∀ id ∈ steps.flatMap Step.handlerIds, id ∈ m.others) : Step.AllAlike m steps steps := by
  refine List.forall₂_same.mpr fun s hs => Step.alike_self s fun id hid => ?_
  exact h id (List.mem_flatMap.mpr ⟨s, hs, hid⟩)

theorem Step.allAlike_raising {steps : List Step} {k : Nat}
    (h : m.At (steps.flatMap Step.handlerIds) k) :
    Step.AllAlike m steps (Step.listRaising m.className m.text steps k) := by
  induction steps generalizing k with
  | nil => exact .nil
  | cons s rest ih =>
      rw [List.flatMap_cons] at h
      rw [Step.listRaising]
      split
      case isTrue hk =>
        exact .cons (Step.alike_raising s k (h.left hk).1) (Step.allAlike_self (h.left hk).2)
      case isFalse hk => exact .cons (Step.alike_self s (h.right hk).1) (ih (h.right hk).2)

mutual

/-- There is one action more at most if a handler raises. -/
theorem Reaction.extent_raising_le (className text : String) : (r : Reaction) → (k : Nat) →
    (r.raising className text k).extent ≤ r.extent + 1
  | .absent, _ => Nat.le_succ _
  | .inert, _ => Nat.le_succ _
  | .handler .., 0 => Nat.le_of_eq (Action.listExtent_append_raise ..)
  | .handler _ actions, k + 1 => Action.listExtent_listRaising_le className text actions k

theorem Action.extent_raising_le (className text : String) : (a : Action) → (k : Nat) →
    (a.raising className text k).extent ≤ a.extent + 1
  | .raise .., _ => Nat.le_succ _
  | .raiseIfError, _ => Nat.le_succ _
  | .keep _, _ => Nat.le_succ _
  | .step s, k => Nat.add_le_add_left (Step.extent_raising_le className text s k) 1

theorem Action.listExtent_listRaising_le (className text : String) : (actions : List Action) →
    (k : Nat) → Action.listExtent (Action.listRaising className text actions k) ≤
      Action.listExtent actions + 1
  | [], _ => Nat.le_succ _
  | a :: rest, k => by
      have hhead := Action.extent_raising_le className text a k
      have hrest := Action.listExtent_listRaising_le className text rest (k - a.handlerIds.length)
      simp only [Action.listRaising]
      split <;> simp only [Action.listExtent] <;> omega

theorem Step.extent_raising_le (className text : String) : (s : Step) → (k : Nat) →
    (s.raising className text k).extent ≤ s.extent + 1
  | .message _, _ => Nat.le_succ _
  | .iterator _, _ => Nat.le_succ _
  | .call _, _ => Nat.le_succ _
  | .connection _, _ => Nat.le_succ _
  | .thing _, _ => Nat.le_succ _
  | .expect _ r _ _, k => Reaction.extent_raising_le className text r k
  | .request _ _ _ r _ _, k => Reaction.extent_raising_le className text r k

end

theorem Step.sum_extent_listRaising_le (className text : String) (steps : List Step) (k : Nat) :
    ((Step.listRaising className text steps k).map Step.extent).sum ≤
      (steps.map Step.extent).sum + 1 := by
  induction steps generalizing k with
  | nil => exact Nat.le_succ _
  | cons s rest ih =>
      have hhead := Step.extent_raising_le className text s k
      have hrest := ih (k - s.handlerIds.length)
      rw [Step.listRaising]
      split <;> simp only [List.map_cons, List.sum_cons] <;> omega

/-- The session with the mishap has as many handlers. -/
theorem Script.handlers_eq_of_alike {s s' : Script} (h : Step.AllAlike m s.steps s'.steps) :
    s'.handlers = s.handlers := by
  obtain ⟨_, _, steps⟩ := s
  obtain ⟨_, _, steps'⟩ := s'
  simp only [Script.handlers] at h ⊢
  induction h with
  | nil => rfl
  | cons hs _ ih => simp only [List.foldr_cons, hs.handlers, ih]

end

end DBusHost
