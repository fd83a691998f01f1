import DBusHost.Proofs.Signature.Walking
import DBusHost.Signature.Walk
import Mathlib.Data.List.Forall2
import Mathlib.Logic.Function.Iterate

/-!
# Moving on by hand

The types of a level are its stops.  There are two ways to move on: as a loop does, which comes
to the first stop first, and at once, which always leaves a stop behind.  However they are mixed,
no stop is come to again, and where a loop has ended nothing is come to any more.
-/

namespace DBusHost

open Attempt SigType

/-! ## Nodes in a text -/

/-- The characters begin with a node of a parse tree: a complete type, or the dict entry of an
array.  Every struct in it has a field. -/
inductive Visit.Begins : Visit → List Char → Prop
  | type {t : SigType} (ht : t.hasFields = true) (rest : List Char) :
      Begins t.visit (t.chars ++ rest)
  | entry (k : BasicType) {w : SigType} (hw : w.hasFields = true) (rest : List Char) :
      Begins (.mk ContainerKind.dictEntry.code noType (String.ofList (entryChars k w))
        (some [leaf k.char, w.visit])) (entryChars k w ++ rest)

namespace Cursor

/-- The cursor on the type that has `k` others of the level before it. -/
def stop (c : Cursor) (k : Nat) : Cursor :=
  ⟨(fun cs => (splitType cs).2)^[k] c.rest, c.inArray, false⟩

/-- The cursor is before the nodes of a level: it stops on each of them, and behind the last one
the level ends, with the array that it is inside or with the text that there is. -/
structure Spans (c : Cursor) (nodes : List Visit) : Prop where
  fresh : c.fresh = true
  begins : ∀ (k : Nat) (node : Visit), nodes[k]? = some node → node.Begins (c.stop k).rest
  ends : c.inArray = true ∧ nodes.length = 1 ∨
    c.inArray = false ∧ codeOf (c.stop nodes.length).rest = noType
  empty : nodes = [] → c.rest = []

variable {c d : Cursor} {node : Visit} {nodes children : List Visit} {ts : List SigType}

theorem shows_of_begins (h : node.Begins c.rest) : c.Shows node := by
  generalize hrest : c.rest = cs at h
  cases h with
  | type ht rest => exact At.shows _ c ⟨rest, hrest⟩
  | entry k hw rest => exact shows_entry hrest (At.shows _)

theorem codeOf_of_begins {cs : List Char} (h : node.Begins cs) : codeOf cs ≠ noType := by
  cases h with
  | @type t ht rest =>
      rw [codeOf_chars]
      exact t.code_ne_noType
  | entry k hw rest => exact (by decide : ContainerKind.dictEntry.code ≠ noType)

/-! ## Levels -/

theorem rest_stop_succ (c : Cursor) (k : Nat) :
    (c.stop (k + 1)).rest = (splitType (c.stop k).rest).2 :=
  Function.iterate_succ_apply' (fun cs => (splitType cs).2) k c.rest

/-- Moving on passes over one type after the other. -/
theorem rest_stop_listChars {rest : List Char} {k : Nat} (hk : k ≤ ts.length)
    (hrest : c.rest = listChars ts ++ rest) :
    (c.stop k).rest = listChars (ts.drop k) ++ rest := by
  induction k with
  | zero => simpa [stop] using hrest
  | succ k ih =>
      have hdrop := List.drop_eq_getElem_cons (l := ts) hk
      rw [rest_stop_succ, ih (by omega), hdrop, listChars, List.append_assoc, splitType_chars]

theorem spans_of_before (h : Before ts c) (hts : listHasFields ts = true)
    (hempty : ts = [] → c.rest = []) : Spans c (listVisit ts) := by
  obtain ⟨⟨rest, hrest, hend⟩, hfresh, harray⟩ := h
  rw [listVisit_eq_map]
  refine ⟨hfresh, fun k node hnode => ?_, .inr ⟨harray, ?_⟩, fun h => hempty (by simpa using h)⟩
  · rw [List.getElem?_map, Option.map_eq_some_iff] at hnode
    obtain ⟨t, ht, rfl⟩ := hnode
    obtain ⟨hk, rfl⟩ := List.getElem?_eq_some_iff.mp ht
    have hfields := listHasFields_iff.mp hts _ (List.getElem_mem hk)
    rw [rest_stop_listChars (Nat.le_of_lt hk) hrest, List.drop_eq_getElem_cons hk, listChars,
      List.append_assoc]
    exact .type hfields _
  · rw [List.length_map, rest_stop_listChars (Nat.le_refl _) hrest, List.drop_length]
    exact hend

/-- Inside an array there is one stop, whatever is behind the array. -/
theorem spans_element {es rest : List Char} (hrest : c.rest = 'a' :: es ++ rest)
    (hnode : node.Begins (es ++ rest)) : Spans c.inside [node] := by
  have hinside : c.inside = ⟨es ++ rest, true, true⟩ := by
    simp only [inside, code, hrest]
    rfl
  rw [hinside]
  refine ⟨rfl, fun k other hother => ?_, .inl ⟨rfl, rfl⟩, by simp⟩
  obtain ⟨hk, rfl⟩ := List.getElem?_eq_some_iff.mp hother
  obtain rfl : k = 0 := by simpa using hk
  exact hnode

theorem before_inside {opening closing : Char} {rest : List Char}
    (hrest : c.rest = opening :: listChars ts ++ [closing] ++ rest)
    (hcode : c.code ≠ ContainerKind.array.code) (hclose : isClosing closing = true) :
    Before ts c.inside := by
  refine ⟨⟨closing :: rest, ?_, by simp [codeOf, hclose]⟩, rfl, ?_⟩
  · simp [inside, hrest]
  · simp [inside, hcode]

/-- Between two brackets there is a stop for each type. -/
theorem spans_bracketed {opening closing : Char} {rest : List Char}
    (hrest : c.rest = opening :: listChars ts ++ [closing] ++ rest)
    (hcode : c.code ≠ ContainerKind.array.code) (hclose : isClosing closing = true)
    (hts : listHasFields ts = true) (hne : ts ≠ []) : Spans c.inside (listVisit ts) :=
  spans_of_before (before_inside hrest hcode hclose) hts fun h => absurd h hne

/-- Inside a node there is a stop for each of its children. -/
theorem spans_inside (h : node.Begins c.rest) (hinside : node.inside = some children) :
    Spans c.inside children := by
  generalize hrest : c.rest = cs at h
  cases h with
  | @type t ht rest =>
      cases t with
      | basic | variant => cases hinside
      | array e =>
          obtain rfl : [e.visit] = children := Option.some.inj hinside
          have he : e.hasFields = true := ht
          exact spans_element hrest (.type he rest)
      | dict k w =>
          obtain rfl := Option.some.inj hinside
          have hw : w.hasFields = true := ht
          rw [← ofList_entryChars]
          exact spans_element hrest (.entry k hw rest)
      | struct fs =>
          obtain rfl : listVisit fs = children := Option.some.inj hinside
          simp only [hasFields, Bool.and_eq_true, Bool.not_eq_true',
            List.isEmpty_eq_false_iff] at ht
          have hfields : c.rest = '(' :: listChars fs ++ [')'] ++ rest := hrest
          have hcode : c.code ≠ ContainerKind.array.code := by
            rw [code, hrest]
            exact (by decide : ContainerKind.struct.code ≠ ContainerKind.array.code)
          exact spans_bracketed hfields hcode rfl ht.2 ht.1
  | @entry k w hw rest =>
      obtain rfl : listVisit [basic k, w] = children := Option.some.inj hinside
      have hchars : entryChars k w = '{' :: listChars [basic k, w] ++ ['}'] := by
        simp [entryChars, listChars, chars]
      have hcode : c.code ≠ ContainerKind.array.code := by
        rw [code, hrest]
        exact (by decide : ContainerKind.dictEntry.code ≠ ContainerKind.array.code)
      rw [hchars] at hrest
      exact spans_bracketed hrest hcode rfl (by simpa [listHasFields, hasFields] using hw)
        (by simp)

/-! ## One move -/

/-- A cursor on a stop goes to the stop behind it, if there is one. -/
theorem Spans.next?_eq (h : Spans c nodes) {k : Nat} (hk : k < nodes.length)
    (harray : d.inArray = c.inArray) (hrest : d.rest = (c.stop k).rest) :
    d.next? = if k + 1 < nodes.length then some (c.stop (k + 1)) else none := by
  have hafter : (splitType d.rest).2 = (c.stop (k + 1)).rest := by rw [hrest, rest_stop_succ]
  have hstop : ({ d with rest := (c.stop (k + 1)).rest, fresh := false } : Cursor) =
      c.stop (k + 1) := by rw [harray]; rfl
  simp only [next?, hafter, hstop]
  rcases h.ends with ⟨hinside, hone⟩ | ⟨hplain, hlast⟩
  · rw [if_pos (.inl (harray.trans hinside)), if_neg (by omega)]
  · by_cases hbehind : k + 1 < nodes.length
    · have hcode := codeOf_of_begins
        (h.begins (k + 1) _ (List.getElem?_eq_getElem hbehind))
      rw [if_neg (by simp [harray, hplain, hcode]), if_pos hbehind]
    · obtain heq : k + 1 = nodes.length := by omega
      rw [heq, if_pos (.inr hlast), if_neg (by omega)]

/-- Where there is no text there is nothing to go to. -/
theorem next?_of_rest_nil (h : d.rest = []) : d.next? = none := by
  simp [next?, h, splitType, codeOf]

/-- How far the cursor has come on a level: it has come to `k` stops at most and stands on the
last of them, or it has not been moved, or the level has turned out to be empty. -/
inductive Placed (c : Cursor) (n : Nat) : Nat → Cursor → Prop
  | fresh : Placed c n 0 c
  | moved {k : Nat} (hk : k < n) : Placed c n (k + 1) (c.stop k)
  | empty (hn : n = 0) : Placed c n 0 (c.stop 0)

/-- Move on: why there is nothing to go to, if there is nothing, and where one stands then. -/
def onward (m : Move) (c : Cursor) : Option EndReason × Cursor :=
  match m with
  | .advance => c.advance
  | _ => match c.next? with
    | some d => (none, d)
    | none => (some .endOfSignature, c)

variable {k : Nat} {m : Move}

/-- A loop goes to the next stop, until there is none. -/
theorem Spans.advance_placed (h : Spans c nodes) (hd : Placed c nodes.length k d) :
    (k < nodes.length ∧ d.advance = (none, c.stop k)) ∨
      (k = nodes.length ∧ ∃ reason d', d.advance = (some reason, d') ∧
        Placed c nodes.length k d') := by
  cases hd with
  | fresh =>
      have hmoved : ({ c with fresh := false } : Cursor) = c.stop 0 := rfl
      by_cases hnodes : nodes = []
      · have hcode : c.code = noType := by
          rw [code, h.empty hnodes]
          rfl
        have hzero : nodes.length = 0 := by simp [hnodes]
        refine .inr ⟨hzero.symm, .emptySignature, c.stop 0, ?_, .empty hzero⟩
        rw [advance, if_pos h.fresh, if_pos hcode, hmoved]
      · have hpos := List.length_pos_iff.mpr hnodes
        have hcode := codeOf_of_begins (h.begins 0 _ (List.getElem?_eq_getElem hpos))
        exact .inl ⟨hpos, advance_of_fresh h.fresh hcode⟩
  | @moved j hj =>
      have hnext := h.next?_eq hj (d := c.stop j) rfl rfl
      by_cases hbehind : j + 1 < nodes.length
      · rw [if_pos hbehind] at hnext
        exact .inl ⟨hbehind, advance_of_next rfl hnext⟩
      · rw [if_neg hbehind] at hnext
        exact .inr ⟨by omega, _, _, advance_of_no_next rfl hnext, .moved hj⟩
  | empty hn =>
      have hrest : (c.stop 0).rest = [] := h.empty (List.length_eq_zero_iff.mp hn)
      exact .inr ⟨hn.symm, _, _, advance_of_no_next rfl (next?_of_rest_nil hrest), .empty hn⟩

/-- Moving on at once comes to a stop that has not been come to, or to nothing. -/
theorem Spans.next?_placed (h : Spans c nodes) (hd : Placed c nodes.length k d) :
    d.next? = none ∨ ∃ j, k ≤ j ∧ j < nodes.length ∧ d.next? = some (c.stop j) := by
  have hstep : ∀ j, k ≤ j + 1 → j < nodes.length → d.inArray = c.inArray →
      d.rest = (c.stop j).rest →
      d.next? = none ∨ ∃ j, k ≤ j ∧ j < nodes.length ∧ d.next? = some (c.stop j) := by
    intro j hkj hj harray hrest
    have hnext := h.next?_eq hj harray hrest
    by_cases hbehind : j + 1 < nodes.length
    · exact .inr ⟨j + 1, hkj, hbehind, by rw [hnext, if_pos hbehind]⟩
    · exact .inl (by rw [hnext, if_neg hbehind])
  cases hd with
  | fresh =>
      by_cases hnodes : nodes = []
      · exact .inl (next?_of_rest_nil (h.empty hnodes))
      · exact hstep 0 (by omega) (List.length_pos_iff.mpr hnodes) rfl rfl
  | @moved j hj => exact hstep j (Nat.le_refl _) hj rfl rfl
  | empty hn => exact .inl (next?_of_rest_nil (h.empty (List.length_eq_zero_iff.mp hn)))

/-- A move either comes to a stop that has not been come to, and a loop to the next one, or it
ends and leaves the cursor as far as it was.  A loop ends behind the last stop only. -/
theorem Spans.onward_placed (h : Spans c nodes) (hd : Placed c nodes.length k d) (m : Move) :
    (∃ j, k ≤ j ∧ j < nodes.length ∧ onward m d = (none, c.stop j)) ∨
      ∃ reason d', onward m d = (some reason, d') ∧ Placed c nodes.length k d' ∧
        (m = .advance → k = nodes.length) := by
  by_cases hm : m = .advance
  · subst hm
    rcases h.advance_placed hd with ⟨hk, hadvance⟩ | ⟨hk, reason, d', hadvance, hd'⟩
    · exact .inl ⟨k, (Nat.le_refl _), hk, hadvance⟩
    · exact .inr ⟨reason, d', hadvance, hd', fun _ => hk⟩
  · have honward : onward m d = match d.next? with
        | some d => (none, d)
        | none => (some .endOfSignature, d) := by cases m <;> first | rfl | exact absurd rfl hm
    rcases h.next?_placed hd with hnone | ⟨j, hkj, hj, hsome⟩
    · exact .inr ⟨_, d, by rw [honward, hnone], hd, fun h => absurd h hm⟩
    · exact .inl ⟨j, hkj, hj, by rw [honward, hsome]⟩

/-! ## The levels of a signature -/

/-- The cursor has been moved on within its level, or has tried to. -/
inductive Onward : Cursor → Cursor → Prop
  | here {c : Cursor} : Onward c c
  | advance {c d : Cursor} (h : Onward c d) : Onward c d.advance.2
  | next {c d e : Cursor} (h : Onward c d) (hnext : d.next? = some e) : Onward c e

/-- The cursor is new and is before the nodes of a level of a well-formed signature: before its
types, or inside what one can come to on another level. -/
inductive OnLevel : Cursor → List Visit → Prop
  | top {s : String} {ts : List SigType} (hs : isWellFormed s = true)
      (hread : readTypes? s = some ts) : OnLevel (start ⟨s⟩) (ts.map visit)
  | inside {c d inner : Cursor} {node : Visit} {nodes children : List Visit}
      (h : OnLevel c nodes) (hmoved : Onward c d) (hnode : d.Shows node)
      (hinside : node.inside = some children) (henter : Gives d.enter inner) :
      OnLevel inner children

theorem Spans.placed (h : Spans c nodes) (hmoved : Onward c d) :
    ∃ k, Placed c nodes.length k d := by
  induction hmoved with
  | here => exact ⟨0, .fresh⟩
  | advance hmoved ih =>
      obtain ⟨k, hd⟩ := ih
      rcases h.advance_placed hd with ⟨hk, hadvance⟩ | ⟨-, reason, d', hadvance, hd'⟩
      · exact ⟨k + 1, by rw [hadvance]; exact .moved hk⟩
      · exact ⟨k, by rwa [hadvance]⟩
  | next hmoved hnext ih =>
      obtain ⟨k, hd⟩ := ih
      rcases h.next?_placed hd with hnone | ⟨j, -, hj, hsome⟩
      · rw [hnone] at hnext
        cases hnext
      · obtain rfl := Option.some.inj (hsome.symm.trans hnext)
        exact ⟨j + 1, .moved hj⟩

/-- Wherever the cursor has come to on a level, it is at a node or there is no text. -/
theorem Spans.begins_placed (h : Spans c nodes) (hd : Placed c nodes.length k d) :
    d.rest = [] ∨ ∃ node : Visit, node.Begins d.rest := by
  have hfirst : (c.stop 0).rest = [] ∨ ∃ node : Visit, node.Begins (c.stop 0).rest := by
    by_cases hnodes : nodes = []
    · exact .inl (h.empty hnodes)
    · exact .inr ⟨_, h.begins 0 _ (List.getElem?_eq_getElem (List.length_pos_iff.mpr hnodes))⟩
  cases hd with
  | fresh | empty => exact hfirst
  | moved hk => exact .inr ⟨_, h.begins _ _ (List.getElem?_eq_getElem hk)⟩

theorem OnLevel.spans (h : OnLevel c nodes) : Spans c nodes := by
  induction h with
  | @top s ts hs hread =>
      obtain ⟨rfl, hfields⟩ := readTypes?_eq_some_iff.mp hread
      have hbefore : Before ts (start ⟨listText ts⟩) :=
        ⟨⟨[], by simp [start, listText], rfl⟩, rfl, rfl⟩
      rw [← listVisit_eq_map]
      refine spans_of_before hbefore hfields fun h => ?_
      simp [h, start, listText, listChars]
  | @inside c d inner node nodes children h hmoved hnode hinside henter ih =>
      obtain ⟨k, hd⟩ := ih.placed hmoved
      have hcontainer := isContainer_of_gives hnode.gives_text henter
      obtain rfl := henter.unique (gives_enter hcontainer)
      rcases ih.begins_placed hd with hrest | ⟨other, hother⟩
      · rw [isContainer, code, hrest] at hcontainer
        exact absurd hcontainer (by decide)
      · obtain rfl := (shows_of_begins hother).unique hnode
        exact spans_inside hother hinside

/-! ## The stops of a level -/

/-- The stops of a level of `n` types. -/
def stops (c : Cursor) (n : Nat) : List Cursor := (List.range n).map c.stop

theorem Spans.forall₂_stops (h : Spans c nodes) :
    List.Forall₂ Shows (c.stops nodes.length) nodes := by
  rw [List.forall₂_iff_get]
  refine ⟨by simp [stops], fun k _ hk => ?_⟩
  simpa [stops] using shows_of_begins (h.begins k _ (List.getElem?_eq_getElem hk))

/-- What is left of the signature is shorter at every stop. -/
theorem Spans.length_stop_lt (h : Spans c nodes) {j : Nat} (hj : j < k)
    (hk : k < nodes.length) : (c.stop k).rest.length < (c.stop j).rest.length := by
  induction k with
  | zero => omega
  | succ k ih =>
      have hcode := codeOf_of_begins
        (h.begins k _ (List.getElem?_eq_getElem (by omega : k < nodes.length)))
      have hlt : (c.stop (k + 1)).rest.length < (c.stop k).rest.length := by
        rw [rest_stop_succ]
        cases hrest : (c.stop k).rest with
        | nil =>
            rw [hrest] at hcode
            exact absurd rfl hcode
        | cons x cs => exact length_splitType_lt x cs
      rcases Nat.lt_succ_iff_lt_or_eq.mp hj with hj | rfl
      · exact Nat.lt_trans hlt (ih hj (by omega))
      · exact hlt

theorem Spans.pairwise_stops (h : Spans c nodes) :
    (c.stops nodes.length).Pairwise fun d e => e.rest.length < d.rest.length := by
  rw [stops, List.pairwise_map]
  refine List.pairwise_lt_range.imp_of_mem fun {j k} _ hk hjk => ?_
  exact h.length_stop_lt hjk (List.mem_range.mp hk)

theorem drop_stops {n j : Nat} (hj : j < n) :
    (c.stops n).drop j = c.stop j :: (c.stops n).drop (j + 1) := by
  have hlength : j < (c.stops n).length := by simpa [stops] using hj
  have hstop : (c.stops n)[j] = c.stop j := by simp [stops]
  rw [List.drop_eq_getElem_cons hlength, hstop]

end Cursor

/-! ## Walks that move on -/

namespace Walk

open Cursor

/-- What moves come to, one after the other: the levels after a move, or its fault. -/
def trail : List Move → StateM Walk (List (Except Fault (List Cursor)))
  | [] => return []
  | m :: rest => do
    let answer ← (perform m).run
    let after := (← get).levels
    return answer.map (fun _ => after) :: (← trail rest)

/-- What the moves that succeed come to. -/
def reached (answers : List (Except Fault (List Cursor))) : List (List Cursor) :=
  answers.filterMap Except.toOption

/-- A move within a level. -/
def IsOnward (m : Move) : Prop := m = .advance ∨ m = .next

/-- The fault that a loop ends with. -/
def IsEnd (answer : Except Fault (List Cursor)) : Prop := ∃ reason, answer = .error (.ended reason)

variable {c d : Cursor} {outer : List Cursor} {f : Failures} {m : Move} {moves : List Move}
  {nodes : List Visit} {k : Nat}

theorem perform_onward (hm : IsOnward m) (c : Cursor) (outer : List Cursor) (f : Failures) :
    (perform m).run.run ⟨c :: outer, f⟩ =
      (match (onward m c).1 with
        | none => .ok .moved
        | some reason => .error (.ended reason), ⟨(onward m c).2 :: outer, f⟩) := by
  rcases hm with rfl | rfl
  · have hrun : (perform .advance).run.run ⟨c :: outer, f⟩ =
        ((do
          place (c.advance.2 :: outer)
          match c.advance.1 with
          | none => return .moved
          | some reason => throw (.ended reason)) : Walking Sight).run.run ⟨c :: outer, f⟩ := rfl
    rw [hrun, onward]
    cases c.advance.1 <;> rfl
  · have hrun : (perform .next).run.run ⟨c :: outer, f⟩ =
        (match c.next? with
          | some c => do
            place (c :: outer)
            return .moved
          | none => throw (.ended .endOfSignature) : Walking Sight).run.run ⟨c :: outer, f⟩ := rfl
    have honward : onward .next c = match c.next? with
        | some d => (none, d)
        | none => (some .endOfSignature, c) := rfl
    rw [hrun, honward]
    cases c.next? <;> rfl

/-- What moves from a cursor on come to. -/
def answers (moves : List Move) (c : Cursor) (outer : List Cursor) (f : Failures) :
    List (Except Fault (List Cursor)) :=
  ((trail moves).run ⟨c :: outer, f⟩).1

theorem answers_nil : answers [] c outer f = [] := rfl

theorem answers_cons (hm : IsOnward m) : answers (m :: moves) c outer f =
    (match (onward m c).1 with
      | none => .ok ((onward m c).2 :: outer)
      | some reason => .error (.ended reason)) :: answers moves (onward m c).2 outer f := by
  have hrun : answers (m :: moves) c outer f =
      ((perform m).run.run ⟨c :: outer, f⟩).1.map
          (fun _ => ((perform m).run.run ⟨c :: outer, f⟩).2.levels) ::
        ((trail moves).run ((perform m).run.run ⟨c :: outer, f⟩).2).1 := rfl
  rw [hrun, perform_onward hm]
  cases (onward m c).1 <;> rfl

theorem answers_moved (hm : IsOnward m) (h : onward m c = (none, d)) :
    answers (m :: moves) c outer f = .ok (d :: outer) :: answers moves d outer f := by
  rw [answers_cons hm, h]

theorem answers_ended {reason : EndReason} (hm : IsOnward m) (h : onward m c = (some reason, d)) :
    answers (m :: moves) c outer f = .error (.ended reason) :: answers moves d outer f := by
  rw [answers_cons hm, h]

/-- Every move is answered, if not with a level then with the end. -/
theorem answers_spec (hmoves : ∀ m ∈ moves, IsOnward m) (c : Cursor) :
    (answers moves c outer f).length = moves.length ∧
      ∀ answer ∈ answers moves c outer f, (∃ d, answer = .ok (d :: outer)) ∨ IsEnd answer := by
  induction moves generalizing c with
  | nil => exact ⟨rfl, by simp [answers_nil]⟩
  | cons m moves ih =>
      obtain ⟨hm, hmoves⟩ := List.forall_mem_cons.mp hmoves
      obtain ⟨hlength, hall⟩ := ih hmoves (onward m c).2
      rw [answers_cons hm, List.length_cons, List.length_cons, hlength]
      refine ⟨rfl, List.forall_mem_cons.mpr ⟨?_, hall⟩⟩
      cases (onward m c).1 with
      | none => exact .inl ⟨_, rfl⟩
      | some reason => exact .inr ⟨reason, rfl⟩

/-- Behind the last stop all moves end. -/
theorem answers_exhausted (h : Spans c nodes) (hd : Placed c nodes.length nodes.length d)
    (hmoves : ∀ m ∈ moves, IsOnward m) : ∀ answer ∈ answers moves d outer f, IsEnd answer := by
  induction moves generalizing d with
  | nil => simp [answers_nil]
  | cons m moves ih =>
      obtain ⟨hm, hmoves⟩ := List.forall_mem_cons.mp hmoves
      rcases h.onward_placed hd m with ⟨j, hkj, hj, -⟩ | ⟨reason, d', honward, hd', -⟩
      · omega
      · rw [answers_ended hm honward]
        exact List.forall_mem_cons.mpr ⟨⟨reason, rfl⟩, ih hd' hmoves⟩

/-- Moves come to some of the stops that have not been come to, in their order. -/
theorem reached_sublist (h : Spans c nodes) (hd : Placed c nodes.length k d)
    (hmoves : ∀ m ∈ moves, IsOnward m) : (reached (answers moves d outer f)).Sublist
      (((c.stops nodes.length).drop k).map (· :: outer)) := by
  induction moves generalizing k d with
  | nil => exact List.nil_sublist _
  | cons m moves ih =>
      obtain ⟨hm, hmoves⟩ := List.forall_mem_cons.mp hmoves
      rcases h.onward_placed hd m with ⟨j, hkj, hj, honward⟩ | ⟨reason, d', honward, hd', -⟩
      · have hbehind := (ih (.moved hj) hmoves).cons_cons (c.stop j :: outer)
        have hskipped := (List.drop_sublist_drop_left (c.stops nodes.length) hkj).map (· :: outer)
        rw [drop_stops hj, List.map_cons] at hskipped
        rw [answers_moved hm honward]
        exact hbehind.trans hskipped
      · rw [answers_ended hm honward]
        exact ih hd' hmoves

/-- A loop comes to all stops that are left, and then it ends again and again. -/
theorem answers_loop (h : Spans c nodes) (hd : Placed c nodes.length k d) (calls : Nat) :
    ∃ ends, answers (List.replicate calls .advance) d outer f =
      (((c.stops nodes.length).drop k).take calls).map (fun e => .ok (e :: outer)) ++ ends ∧
      ∀ answer ∈ ends, IsEnd answer := by
  induction calls generalizing k d with
  | zero => exact ⟨[], rfl, by simp⟩
  | succ calls ih =>
      rcases h.advance_placed hd with ⟨hk, hadvance⟩ | ⟨rfl, -⟩
      · obtain ⟨ends, hanswers, hends⟩ := ih (.moved hk)
        refine ⟨ends, ?_, hends⟩
        rw [List.replicate_succ, answers_moved (.inl rfl) hadvance, hanswers, drop_stops hk]
        rfl
      · have hmoves : ∀ m ∈ List.replicate (calls + 1) Move.advance, IsOnward m :=
          fun m hm => .inl (List.eq_of_mem_replicate hm)
        have hends : ∀ answer ∈ answers (List.replicate (calls + 1) .advance) d outer f,
          IsEnd answer := answers_exhausted h hd hmoves
        refine ⟨_, ?_, hends⟩
        rw [List.drop_of_length_le (by simp [stops]), List.take_nil]
        rfl

/-- Where a loop has ended, no later move comes to anything. -/
theorem answers_after_end (h : Spans c nodes) (hd : Placed c nodes.length k d)
    (hmoves : ∀ m ∈ moves, IsOnward m) {i j : Nat} {g : Fault} {answer : Except Fault (List Cursor)}
    (hloop : moves[i]? = some .advance) (hended : (answers moves d outer f)[i]? = some (.error g))
    (hij : i < j) (hj : (answers moves d outer f)[j]? = some answer) : IsEnd answer := by
  induction moves generalizing k d i j with
  | nil => simp at hloop
  | cons m moves ih =>
      obtain ⟨hm, hmoves⟩ := List.forall_mem_cons.mp hmoves
      obtain ⟨j, rfl⟩ := Nat.exists_eq_succ_of_ne_zero (by omega : j ≠ 0)
      rcases h.onward_placed hd m with ⟨l, -, hl, honward⟩ | ⟨reason, d', honward, hd', hlast⟩
      · rw [answers_moved hm honward] at hended hj
        cases i with
        | zero => simp at hended
        | succ i => exact ih (.moved hl) hmoves hloop hended (by omega) hj
      · rw [answers_ended hm honward] at hended hj
        cases i with
        | zero =>
            obtain rfl := hlast (Option.some.inj hloop)
            exact answers_exhausted h hd' hmoves _ (List.mem_of_getElem? hj)
        | succ i => exact ih hd' hmoves hloop hended (by omega) hj

end Walk

namespace Cursor

/-- Moving on over a level comes to every stop once, and stays at the end. -/
structure VisitsOnce (c : Cursor) (nodes : List Visit) (stops : List Cursor) : Prop where
  /-- There is a stop on each node. -/
  shows : List.Forall₂ Shows stops nodes
  /-- At every stop less of the signature is left than at those before it. -/
  onward : stops.Pairwise fun d e => e.rest.length < d.rest.length
  /-- A loop comes to one stop after the other, and then it ends, however often one tries. -/
  loop (calls : Nat) (outer : List Cursor) (f : Failures) :
    ∃ ends, Walk.answers (List.replicate calls .advance) c outer f =
      (stops.take calls).map (fun d => .ok (d :: outer)) ++ ends ∧
      ∀ answer ∈ ends, Walk.IsEnd answer
  /-- A move succeeds or there is nothing to go to. -/
  answered (moves : List Move) (hmoves : ∀ m ∈ moves, Walk.IsOnward m) (outer : List Cursor)
    (f : Failures) : (Walk.answers moves c outer f).length = moves.length ∧
      ∀ answer ∈ Walk.answers moves c outer f, (∃ d, answer = .ok (d :: outer)) ∨ Walk.IsEnd answer
  /-- However moves are mixed, those that succeed come to stops in their order. -/
  mixed (moves : List Move) (hmoves : ∀ m ∈ moves, Walk.IsOnward m) (outer : List Cursor)
    (f : Failures) :
    (Walk.reached (Walk.answers moves c outer f)).Sublist (stops.map (· :: outer))
  /-- Where a loop has ended, no later move succeeds. -/
  exhausted (moves : List Move) (hmoves : ∀ m ∈ moves, Walk.IsOnward m) (outer : List Cursor)
    (f : Failures) (i j : Nat) (g : Fault) (answer : Except Fault (List Cursor)) :
    moves[i]? = some .advance → (Walk.answers moves c outer f)[i]? = some (.error g) → i < j →
      (Walk.answers moves c outer f)[j]? = some answer → Walk.IsEnd answer

theorem OnLevel.visitsOnce {c : Cursor} {nodes : List Visit} (h : OnLevel c nodes) :
    VisitsOnce c nodes (c.stops nodes.length) where
  shows := h.spans.forall₂_stops
  onward := h.spans.pairwise_stops
  loop calls _ _ := Walk.answers_loop h.spans .fresh calls
  answered _ hmoves _ _ := Walk.answers_spec hmoves c
  mixed _ hmoves _ _ := Walk.reached_sublist h.spans .fresh hmoves
  exhausted _ hmoves _ _ _ _ _ _ := Walk.answers_after_end h.spans .fresh hmoves

end Cursor

end DBusHost
