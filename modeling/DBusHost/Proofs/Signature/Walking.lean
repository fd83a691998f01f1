import DBusHost.Proofs.Native.Attempts
import DBusHost.Proofs.Signature.Tree

/-!
# Walking over a signature

A walk that moves a cursor on until there is no further type, and that enters every container,
comes to the nodes of the parse tree.  The cursor has only one flat text: a complete type is
found by its marks and brackets, and what is behind the level is not looked at.
-/

namespace DBusHost

open Attempt

/-! ## Splitting off a type -/

namespace SigType

/-- A type that cannot be entered is written as one character, which is no bracket. -/
theorem not_bracket_leaf {x : Char} (hx : x = 'v' ∨ ∃ b : BasicType, x = b.char) :
    isOpening x = false ∧ isClosing x = false ∧ x ≠ 'a' := by
  obtain rfl | ⟨b, rfl⟩ := hx
  · decide
  · cases b <;> decide

theorem typeCode_leaf {x : Char} (hx : x = 'v' ∨ ∃ b : BasicType, x = b.char) :
    typeCode x ≠ noType ∧ typeCode x ≠ ContainerKind.array.code ∧
      typeCode x ≠ ContainerKind.struct.code ∧ typeCode x ≠ ContainerKind.dictEntry.code := by
  obtain rfl | ⟨b, rfl⟩ := hx
  · decide
  · cases b <;> decide

theorem splitClosing_plain {depth : Nat} {c : Char} (ho : isOpening c = false)
    (hc : isClosing c = false) (rest : List Char) :
    splitClosing (depth + 1) (c :: rest) =
      (c :: (splitClosing (depth + 1) rest).1, (splitClosing (depth + 1) rest).2) := by
  simp [splitClosing, depthAfter, ho, hc]

theorem splitClosing_open {depth : Nat} {c : Char} (ho : isOpening c = true)
    (rest : List Char) : splitClosing depth (c :: rest) =
      (c :: (splitClosing (depth + 1) rest).1, (splitClosing (depth + 1) rest).2) := by
  simp [splitClosing, depthAfter, ho]

theorem splitClosing_close {depth : Nat} {c : Char} (ho : isOpening c = false)
    (hc : isClosing c = true) (rest : List Char) : splitClosing (depth + 2) (c :: rest) =
      (c :: (splitClosing (depth + 1) rest).1, (splitClosing (depth + 1) rest).2) := by
  simp [splitClosing, depthAfter, ho, hc]

theorem splitClosing_last {c : Char} (ho : isOpening c = false) (hc : isClosing c = true)
    (rest : List Char) : splitClosing 1 (c :: rest) = ([c], rest) := by
  simp [splitClosing, depthAfter, ho, hc]

/-- Characters are passed over by a search for a closing bracket. -/
def Passed (cs : List Char) : Prop := ∀ (depth : Nat) (rest : List Char),
  splitClosing (depth + 1) (cs ++ rest) =
    (cs ++ (splitClosing (depth + 1) rest).1, (splitClosing (depth + 1) rest).2)

theorem passed_nil : Passed [] := fun _ _ => rfl

theorem Passed.append {cs ds : List Char} (hcs : Passed cs) (hds : Passed ds) :
    Passed (cs ++ ds) := by
  intro depth rest
  rw [List.append_assoc, hcs, hds]
  simp

theorem passed_plain {c : Char} (ho : isOpening c = false) (hc : isClosing c = false) :
    Passed [c] := fun _ rest => splitClosing_plain ho hc rest

theorem passed_leaf {x : Char} (hx : x = 'v' ∨ ∃ b : BasicType, x = b.char) : Passed [x] :=
  passed_plain (not_bracket_leaf hx).1 (not_bracket_leaf hx).2.1

/-- What is between two brackets is passed over with them. -/
theorem Passed.bracketed {o c : Char} {cs : List Char} (hopen : isOpening o = true)
    (ho : isOpening c = false) (hc : isClosing c = true) (h : Passed cs) :
    Passed (o :: cs ++ [c]) := by
  intro depth rest
  have hinside := h (depth + 1) (c :: rest)
  rw [splitClosing_close ho hc] at hinside
  have htext : o :: cs ++ [c] ++ rest = o :: (cs ++ c :: rest) := by simp
  rw [htext, splitClosing_open hopen, hinside]
  simp

mutual

theorem passed_chars : (t : SigType) → Passed t.chars
  | basic b => passed_leaf (.inr ⟨b, rfl⟩)
  | variant => passed_leaf (.inl rfl)
  | array e => (passed_plain (c := 'a') rfl rfl).append (passed_chars e)
  | dict k w => by
      have hkey := passed_leaf (.inr ⟨k, rfl⟩)
      have hentry := (hkey.append (passed_chars w)).bracketed (o := '{') (c := '}') rfl rfl rfl
      exact (passed_plain (c := 'a') rfl rfl).append hentry
  | struct fs => (passed_listChars fs).bracketed rfl rfl rfl

theorem passed_listChars : (ts : List SigType) → Passed (listChars ts)
  | [] => passed_nil
  | t :: ts => (passed_chars t).append (passed_listChars ts)

end

/-- Splitting after an opening bracket goes to the bracket that closes it. -/
theorem splitType_bracketed {o c : Char} {cs : List Char} (hopen : isOpening o = true)
    (ho : isOpening c = false) (hc : isClosing c = true) (h : Passed cs) (rest : List Char) :
    splitType (o :: cs ++ [c] ++ rest) = (o :: cs ++ [c], rest) := by
  have hinside := h 0 (c :: rest)
  rw [splitClosing_last ho hc] at hinside
  have hmark : o ≠ 'a' := by
    rintro rfl
    exact absurd hopen (by decide)
  simp [splitType, hmark, hopen, hinside]

theorem splitType_entryChars (k : BasicType) (w : SigType) (rest : List Char) :
    splitType (entryChars k w ++ rest) = (entryChars k w, rest) := by
  have hkey := passed_leaf (.inr ⟨k, rfl⟩)
  exact splitType_bracketed rfl rfl rfl (hkey.append (passed_chars w)) rest

theorem splitType_mark {cs ds rest : List Char} (h : splitType (cs ++ rest) = (ds, rest)) :
    splitType ('a' :: cs ++ rest) = ('a' :: ds, rest) := by
  simp [splitType, h]

/-- The first complete type of a text is the type that the text starts with. -/
theorem splitType_chars : (t : SigType) → (rest : List Char) →
    splitType (t.chars ++ rest) = (t.chars, rest)
  | basic b, rest => by
      obtain ⟨hopening, -, hmark⟩ := not_bracket_leaf (.inr ⟨b, rfl⟩)
      simp [chars, splitType, hopening, hmark]
  | variant, _ => rfl
  | array e, rest => splitType_mark (splitType_chars e rest)
  | dict k w, rest => splitType_mark (splitType_entryChars k w rest)
  | struct fs, rest => splitType_bracketed rfl rfl rfl (passed_listChars fs) rest

end SigType

/-! ## Coming to a node -/

namespace Cursor

mutual

/-- Moving the cursor on until there is no type comes to the nodes, one after the other. -/
inductive Sees : Cursor → List Visit → Prop
  | ended {c c' : Cursor} {reason : EndReason} (h : c.advance = (some reason, c')) : Sees c []
  | next {c c' : Cursor} {node : Visit} {nodes : List Visit} (h : c.advance = (none, c'))
      (hnode : Shows c' node) (hnodes : Sees c' nodes) : Sees c (node :: nodes)

/-- The cursor stands on the node.  It can be entered if the node has something inside, and a
cursor inside comes to that; otherwise it is refused as no container. -/
inductive Shows : Cursor → Visit → Prop
  | container {c inner : Cursor} {text : String} {nodes : List Visit}
      (htext : Gives c.text text) (henter : Gives c.enter inner) (hinner : Sees inner nodes) :
      Shows c (.mk c.code c.elementCode text (some nodes))
  | leaf {c : Cursor} {text : String} {f : Fault} (htext : Gives c.text text)
      (henter : Fails c.enter f) (hkind : f.kind = .type) :
      Shows c (.mk c.code c.elementCode text none)

end

mutual

theorem Sees.unique : {c : Cursor} → {nodes others : List Visit} → Sees c nodes →
    Sees c others → nodes = others
  | _, _, _, .ended _, .ended _ => rfl
  | _, _, _, .ended h, .next h' _ _ => by cases h.symm.trans h'
  | _, _, _, .next h _ _, .ended h' => by cases h.symm.trans h'
  | _, _, _, .next h hnode hnodes, .next h' hnode' hnodes' => by
      obtain rfl := (Prod.mk.inj (h.symm.trans h')).2
      rw [hnode.unique hnode', hnodes.unique hnodes']

theorem Shows.unique : {c : Cursor} → {node other : Visit} → Shows c node →
    Shows c other → node = other
  | _, _, _, .container htext henter hinner, .container htext' henter' hinner' => by
      obtain rfl := henter.unique henter'
      rw [htext.unique htext', hinner.unique hinner']
  | _, _, _, .container _ henter _, .leaf _ henter' _ => absurd henter' henter.not_fails
  | _, _, _, .leaf _ henter _, .container _ henter' _ => absurd henter henter'.not_fails
  | _, _, _, .leaf htext _ _, .leaf htext' _ _ => by rw [htext.unique htext']

end

variable {c : Cursor}

theorem advance_of_fresh (hfresh : c.fresh = true) (hcode : c.code ≠ noType) :
    c.advance = (none, { c with fresh := false }) := by
  simp [advance, hfresh, hcode]

theorem advance_of_next {c' : Cursor} (hfresh : c.fresh = false) (h : c.next? = some c') :
    c.advance = (none, c') := by
  simp [advance, hfresh, h]

theorem advance_of_no_next (hfresh : c.fresh = false) (h : c.next? = none) :
    c.advance = (some .endOfSignature, c) := by
  simp [advance, hfresh, h]

theorem gives_text {chars rest : List Char} (hcode : c.code ≠ noType)
    (hsplit : splitType c.rest = (chars, rest)) : Gives c.text (String.ofList chars) := by
  have hcurrent : c.current = chars := by rw [current, if_neg hcode, hsplit]
  rw [text, if_neg hcode, hcurrent]
  exact (gives_call _).bind (gives_pure _)

theorem gives_enter (h : c.isContainer = true) : Gives c.enter c.inside := by
  rw [enter, if_pos h]
  exact gives_pure _

/-- What is no container cannot be entered. -/
theorem fails_enter {s : String} (h : c.isContainer = false) (htext : Gives c.text s) :
    Fails c.enter (.notContainerType (Text.quoted s)) := by
  rw [enter, if_neg (by simp [h])]
  exact htext.bind_throw

theorem isContainer_of_gives {s : String} {inner : Cursor} (htext : Gives c.text s)
    (h : Gives c.enter inner) : c.isContainer = true := by
  by_contra hc
  exact h.not_fails (fails_enter (by simpa using hc) htext)

/-- A cursor on a container shows what a cursor inside comes to. -/
theorem shows_container {chars rest : List Char} {nodes : List Visit}
    (hsplit : splitType c.rest = (chars, rest)) (h : c.isContainer = true)
    (hinside : c.inside.Sees nodes) :
    c.Shows (.mk c.code c.elementCode (String.ofList chars) (some nodes)) := by
  have hcode : c.code ≠ noType := by
    intro hcode
    rw [isContainer, hcode] at h
    exact absurd h (by decide)
  exact .container (gives_text hcode hsplit) (gives_enter h) hinside

theorem shows_leaf {x : Char} {rest : List Char} (hrest : c.rest = x :: rest)
    (hx : x = 'v' ∨ ∃ b : BasicType, x = b.char) : c.Shows (SigType.leaf x) := by
  obtain ⟨hopening, hclosing, hmark⟩ := SigType.not_bracket_leaf hx
  obtain ⟨hne, harray, hstruct, hentry⟩ := SigType.typeCode_leaf hx
  have hsplit : splitType c.rest = ([x], rest) := by simp [hrest, splitType, hmark, hopening]
  have hcode : c.code = typeCode x := by simp [code, codeOf, hrest, hclosing]
  have helement : c.elementCode = noType := by rw [elementCode, hcode, if_neg harray]
  have hcontainer : c.isContainer = false := by
    simp [isContainer, hcode, harray, hstruct, hentry]
  have htext := gives_text (hcode ▸ hne) hsplit
  rw [SigType.leaf, ← hcode, ← helement]
  exact .leaf htext (fails_enter hcontainer htext) rfl

/-- The one type in an array is not left. -/
theorem sees_element {node : Visit} (hfresh : c.fresh = true) (harray : c.inArray = true)
    (hcode : c.code ≠ noType) (h : ({ c with fresh := false } : Cursor).Shows node) :
    c.Sees [node] := by
  have hnext : ({ c with fresh := false } : Cursor).next? = none := by simp [next?, harray]
  exact .next (advance_of_fresh hfresh hcode) h (.ended (advance_of_no_next rfl hnext))

end Cursor

namespace SigType

theorem code_ne_noType (t : SigType) : t.code ≠ noType := by
  cases t with
  | basic b => exact b.typeCode_char_ne_noType
  | variant => exact (by decide : ContainerKind.variant.code ≠ noType)
  | array | dict => exact (by decide : ContainerKind.array.code ≠ noType)
  | struct => exact (by decide : ContainerKind.struct.code ≠ noType)

theorem codeOf_chars (t : SigType) (rest : List Char) :
    Cursor.codeOf (t.chars ++ rest) = t.code := by
  cases t with
  | basic b =>
      have hclosing := (not_bracket_leaf (.inr ⟨b, rfl⟩)).2.1
      simp [chars, Cursor.codeOf, hclosing, code]
  | _ => rfl

/-- The cursor is at a complete type. -/
def At (t : SigType) (c : Cursor) : Prop := ∃ rest, c.rest = t.chars ++ rest

/-- The cursor is before the types of a level, and behind them there is no type. -/
structure Before (ts : List SigType) (c : Cursor) : Prop where
  rest : ∃ rest, c.rest = listChars ts ++ rest ∧ Cursor.codeOf rest = noType
  fresh : c.fresh = true
  inArray : c.inArray = false

variable {c : Cursor}

/-- A cursor that has been moved to a type comes to those behind it. -/
theorem sees_behind {ts : List SigType} (hts : ∀ t ∈ ts, ∀ c, At t c → c.Shows t.visit)
    {t : SigType} {rest : List Char} (hrest : c.rest = t.chars ++ (listChars ts ++ rest))
    (hend : Cursor.codeOf rest = noType) (hfresh : c.fresh = false) (harray : c.inArray = false) :
    c.Sees (listVisit ts) := by
  induction ts generalizing c t with
  | nil =>
      have hnext : c.next? = none := by
        simp [Cursor.next?, harray, hrest, splitType_chars, listChars, hend]
      exact .ended (Cursor.advance_of_no_next hfresh hnext)
  | cons u us ih =>
      have hafter : (splitType c.rest).2 = u.chars ++ (listChars us ++ rest) := by
        simp [hrest, splitType_chars, listChars]
      have hcode : Cursor.codeOf (u.chars ++ (listChars us ++ rest)) ≠ noType := by
        rw [codeOf_chars]
        exact u.code_ne_noType
      have hnext : c.next? = some { c with
          rest := u.chars ++ (listChars us ++ rest), fresh := false } := by
        simp [Cursor.next?, harray, hcode, hafter]
      have hnodes := ih (fun t ht => hts t (by simp [ht])) (c := { c with
        rest := u.chars ++ (listChars us ++ rest), fresh := false }) rfl rfl harray
      exact .next (Cursor.advance_of_next hfresh hnext) (hts u (by simp) _ ⟨_, rfl⟩) hnodes

/-- A cursor before the types of a level comes to each of them. -/
theorem Before.sees {ts : List SigType} (h : Before ts c)
    (hts : ∀ t ∈ ts, ∀ c, At t c → c.Shows t.visit) : c.Sees (listVisit ts) := by
  obtain ⟨⟨rest, hrest, hend⟩, hfresh, harray⟩ := h
  cases ts with
  | nil =>
      have hcode : c.code = noType := by rwa [Cursor.code, hrest]
      exact .ended (by rw [Cursor.advance, if_pos hfresh, if_pos hcode])
  | cons t ts =>
      rw [listChars, List.append_assoc] at hrest
      have hcode : c.code ≠ noType := by
        rw [Cursor.code, hrest, codeOf_chars]
        exact t.code_ne_noType
      have hbehind := sees_behind (fun t ht => hts t (by simp [ht]))
        (c := { c with fresh := false }) hrest hend rfl harray
      exact .next (Cursor.advance_of_fresh hfresh hcode) (hts t (by simp) _ ⟨_, hrest⟩) hbehind

theorem shows_array {es rest : List Char} {node : Visit} (hrest : c.rest = 'a' :: es ++ rest)
    (hsplit : splitType (es ++ rest) = (es, rest))
    (h : (⟨es ++ rest, true, false⟩ : Cursor).Shows node)
    (hcode : Cursor.codeOf (es ++ rest) = node.code) (hne : node.code ≠ noType) :
    c.Shows (.mk ContainerKind.array.code node.code (String.ofList ('a' :: es)) (some [node])) := by
  have harray : c.code = ContainerKind.array.code := by
    rw [Cursor.code, hrest]
    rfl
  have helement : c.elementCode = node.code := by
    rw [Cursor.elementCode, if_pos harray, hrest, ← hcode]
    rfl
  have hinside : c.inside = ⟨es ++ rest, true, true⟩ := by simp [Cursor.inside, harray, hrest]
  have hnodes : c.inside.Sees [node] := by
    rw [hinside]
    exact Cursor.sees_element rfl rfl (by rwa [Cursor.code, hcode]) h
  have hshows := Cursor.shows_container (hrest ▸ splitType_mark hsplit)
    (by simp [Cursor.isContainer, harray]) hnodes
  rwa [harray, helement] at hshows

/-- A cursor at an opening bracket that is no array shows what stands between the brackets. -/
theorem shows_bracketed {kind : ContainerKind} (hkind : kind = .struct ∨ kind = .dictEntry)
    {opening closing : Char} {ts : List SigType} {rest : List Char}
    (hrest : c.rest = opening :: listChars ts ++ [closing] ++ rest) (hcode : c.code = kind.code)
    (hopen : isOpening opening = true) (hplain : isOpening closing = false)
    (hclose : isClosing closing = true) (hts : ∀ t ∈ ts, ∀ c, At t c → c.Shows t.visit) :
    c.Shows (.mk kind.code noType (String.ofList (opening :: listChars ts ++ [closing]))
      (some (listVisit ts))) := by
  have hne : kind.code ≠ ContainerKind.array.code := by
    rcases hkind with rfl | rfl <;> decide
  have helement : c.elementCode = noType := by rw [Cursor.elementCode, hcode, if_neg hne]
  have hbefore : Before ts c.inside := by
    refine ⟨⟨closing :: rest, ?_, by simp [Cursor.codeOf, hclose]⟩, rfl, ?_⟩
    · simp [Cursor.inside, hrest]
    · simp [Cursor.inside, hcode, hne]
  have hcontainer : c.isContainer = true := by
    rcases hkind with rfl | rfl <;> simp [Cursor.isContainer, hcode]
  have hshows := Cursor.shows_container
    (hrest ▸ splitType_bracketed hopen hplain hclose (passed_listChars ts) rest) hcontainer
    (hbefore.sees hts)
  rwa [hcode, helement] at hshows

/-- A cursor at a dict entry shows the key and the value. -/
theorem shows_entry {k : BasicType} {w : SigType} {rest : List Char}
    (hrest : c.rest = entryChars k w ++ rest) (hw : ∀ c, At w c → c.Shows w.visit) :
    c.Shows (.mk ContainerKind.dictEntry.code noType (String.ofList (entryChars k w))
      (some [leaf k.char, w.visit])) := by
  have hchars : entryChars k w = '{' :: listChars [basic k, w] ++ ['}'] := by
    simp [entryChars, listChars, chars]
  have htypes : ∀ t ∈ [basic k, w], ∀ c, At t c → c.Shows t.visit := by
    intro t ht c hc
    obtain rfl | rfl : t = basic k ∨ t = w := by simpa using ht
    · obtain ⟨_, hrest⟩ := hc
      exact Cursor.shows_leaf hrest (.inr ⟨k, rfl⟩)
    · exact hw c hc
  have hcode : c.code = ContainerKind.dictEntry.code := by
    rw [Cursor.code, hrest]
    rfl
  rw [hchars] at hrest ⊢
  exact shows_bracketed (.inr rfl) hrest hcode rfl rfl rfl htypes

mutual

/-- A cursor at a type shows the tree of the type, whatever is behind the type. -/
theorem At.shows : (t : SigType) → (c : Cursor) → At t c → c.Shows t.visit
  | basic b, _, ⟨_, hrest⟩ => Cursor.shows_leaf hrest (.inr ⟨b, rfl⟩)
  | variant, _, ⟨_, hrest⟩ => Cursor.shows_leaf hrest (.inl rfl)
  | array e, c, ⟨rest, hrest⟩ => by
      have helement := At.shows e ⟨e.chars ++ rest, true, false⟩ ⟨rest, rfl⟩
      have hcode := (codeOf_chars e rest).trans (code_visit e).symm
      have hshows := shows_array hrest (splitType_chars e rest) helement hcode
        ((code_visit e).symm ▸ e.code_ne_noType)
      rwa [code_visit] at hshows
  | dict k w, c, ⟨rest, hrest⟩ => by
      have hentry := shows_entry (c := ⟨entryChars k w ++ rest, true, false⟩) rfl (At.shows w)
      have hne : ContainerKind.dictEntry.code ≠ noType := by decide
      have hshows := shows_array hrest (splitType_entryChars k w rest) hentry rfl hne
      rwa [ofList_entryChars] at hshows
  | struct fs, c, ⟨rest, hrest⟩ => by
      have hcode : c.code = ContainerKind.struct.code := by
        rw [Cursor.code, hrest]
        rfl
      exact shows_bracketed (.inl rfl) hrest hcode rfl rfl rfl (At.shows_of_mem fs)

theorem At.shows_of_mem : (ts : List SigType) → ∀ t ∈ ts, ∀ c, At t c → c.Shows t.visit
  | [], _, ht => by simp at ht
  | t :: ts, u, hu => by
      rcases List.mem_cons.mp hu with heq | hu
      · rw [heq]
        exact At.shows t
      · exact At.shows_of_mem ts u hu

end

end SigType

/-! ## Walks that are run -/

namespace Cursor

variable {c c' : Cursor} {node : Visit} {nodes : List Visit}

/-- How many steps a walk can still go: one for each character, and one to the first type. -/
def steps (c : Cursor) : Nat := c.rest.length + c.fresh.toNat

theorem length_splitType_lt (x : Char) (cs : List Char) :
    (splitType (x :: cs)).2.length < (x :: cs).length := by
  have happend := congrArg List.length (splitType_append (x :: cs))
  have hfirst : (splitType (x :: cs)).1 ≠ [] := by
    simp only [splitType]
    split
    · simp
    · split <;> simp
  have hpos := List.length_pos_iff.mpr hfirst
  rw [List.length_append] at happend
  omega

/-- Every step leaves a character behind, or is the first one. -/
theorem steps_advance (h : c.advance = (none, c')) : c'.fresh = false ∧ c'.steps < c.steps := by
  unfold advance at h
  cases hfresh : c.fresh with
  | true =>
      rw [if_pos hfresh] at h
      obtain ⟨-, rfl⟩ := Prod.mk.inj h
      simp [steps, hfresh]
  | false =>
      rw [if_neg (by simp [hfresh])] at h
      cases hnext : c.next? with
      | none => simp [hnext] at h
      | some d =>
          obtain rfl : d = c' := by simpa [hnext] using h
          unfold next? at hnext
          simp only [Option.ite_none_left_eq_some, not_or] at hnext
          obtain ⟨⟨-, hcode⟩, hd⟩ := hnext
          obtain rfl := Option.some.inj hd
          cases hrest : c.rest with
          | nil => simp [hrest, splitType, codeOf] at hcode
          | cons x cs =>
              have hlt := length_splitType_lt x cs
              simpa [steps, hfresh, hrest] using hlt

theorem steps_inside (h : c.isContainer = true) : c.inside.steps ≤ c.rest.length := by
  cases hrest : c.rest with
  | nil => simp [isContainer, code, hrest, codeOf, noType, ContainerKind.code] at h
  | cons x cs => simp [steps, inside, hrest]

theorem Shows.gives_text (h : Shows c node) : Gives c.text node.text := by
  cases h with
  | container htext | leaf htext => exact htext

theorem Sees.gives_texts (h : Sees c nodes) (fuel : Nat) (hfuel : nodes.length ≤ fuel) :
    Gives (texts fuel c) (nodes.map Visit.text) := by
  induction fuel generalizing c nodes with
  | zero =>
      obtain rfl : nodes = [] := by simpa using hfuel
      exact gives_pure []
  | succ fuel ih =>
      cases h with
      | ended h =>
          simp only [texts, h]
          exact gives_pure []
      | next h hnode hnodes =>
          simp only [texts, h]
          exact hnode.gives_text.bind ((ih hnodes (by simpa using hfuel)).bind (gives_pure _))

/-- A walk that has fuel for each step that it can go finds what the cursor comes to. -/
theorem Sees.gives_explore (h : Sees c nodes) (fuel : Nat) (hfuel : c.steps ≤ fuel) :
    Gives (explore fuel c) nodes := by
  induction fuel generalizing c nodes with
  | zero =>
      cases h with
      | ended => exact gives_pure []
      | next h => exact absurd (steps_advance h).2 (by omega)
  | succ fuel ih =>
      cases h with
      | ended h =>
          simp only [explore, h]
          exact gives_pure []
      | @next _ d _ _ h hnode hnodes =>
          obtain ⟨hfresh, hlt⟩ := steps_advance h
          have hlength : d.rest.length = d.steps := by simp [steps, hfresh]
          have hbehind := ih hnodes (by omega)
          simp only [explore, h]
          cases hnode with
          | container htext henter hinner =>
              have hcontainer := isContainer_of_gives htext henter
              obtain rfl := henter.unique (gives_enter hcontainer)
              have hinside := ih hinner (Nat.le_trans (steps_inside hcontainer) (by omega))
              simp only [hcontainer, if_true]
              exact htext.bind ((hinside.map some).bind (hbehind.bind (gives_pure _)))
          | leaf htext henter =>
              have hplain : d.isContainer = false := by
                by_contra hcontainer
                exact (gives_enter (by simpa using hcontainer)).not_fails henter
              simp only [hplain, Bool.false_eq_true, if_false]
              exact htext.bind ((gives_pure none).bind (hbehind.bind (gives_pure _)))

end Cursor

namespace SigType

theorem length_le_length_listChars (ts : List SigType) : ts.length ≤ (listChars ts).length := by
  induction ts with
  | nil => exact Nat.le_refl 0
  | cons t ts ih =>
      have hpos : 0 < t.chars.length := by cases t <;> simp [chars]
      rw [listChars, List.length_append, List.length_cons]
      omega

end SigType

namespace Signature

open Cursor SigType

variable {ts : List SigType}

theorem sees_listText (ts : List SigType) : (start ⟨listText ts⟩).Sees (listVisit ts) := by
  have hbefore : Before ts (start ⟨listText ts⟩) := by
    refine ⟨⟨[], ?_, rfl⟩, rfl, rfl⟩
    simp [start, listText]
  exact hbefore.sees (At.shows_of_mem ts)

/-- A signature is taken apart into the texts of its types. -/
theorem gives_pieces (ts : List SigType) :
    Gives (pieces ⟨listText ts⟩) ((ts.map SigType.text).map Signature.mk) := by
  have hsees := sees_listText ts
  rw [listVisit_eq_map] at hsees
  have htexts : (ts.map visit).map Visit.text = ts.map SigType.text := by simp [text_visit]
  have hlength : (listText ts).length = (listChars ts).length := by simp [listText]
  have hfuel : (ts.map visit).length ≤ (listText ts).length := by
    rw [List.length_map, hlength]
    exact length_le_length_listChars ts
  have hpieces := (hsees.gives_texts _ hfuel).map (List.map Signature.mk)
  simpa only [pieces, bind_pure_comp, htexts] using hpieces

/-- While no native routine fails, a walk over a well-formed signature that enters every
container comes to the nodes of its parse tree and to no others.  Those at the top are its
complete types, whose texts make up the signature; the types that are cut out of it are the
same.  All texts, codes and children in the tree fit one another. -/
theorem walk_tree {v : Validator} (hv : v.Exact) {s : String} (hs : isWellFormed s = true) :
    ∃ g ts, ofText v s = .ok g ∧ readTypes? s = some ts ∧
      (∀ nodes, (start g).Sees nodes ↔ nodes = ts.map visit) ∧
      Gives g.explore (ts.map visit) ∧
      (∀ node ∈ ts.map visit, node.IsTree) ∧
      (ts.map visit).map Visit.text = ts.map SigType.text ∧
      Visit.joined (ts.map visit) = s ∧
      Gives g.pieces ((ts.map SigType.text).map Signature.mk) := by
  obtain ⟨ts, rfl, hts⟩ := isWellFormed_iff.mp hs
  have hsees := sees_listText ts
  have htexts : (ts.map visit).map Visit.text = ts.map SigType.text := by simp [text_visit]
  rw [listVisit_eq_map] at hsees
  refine ⟨⟨listText ts⟩, ts, ofText_listText hv hts, readTypes?_eq_some_iff.mpr ⟨rfl, hts.nonempty⟩,
    fun nodes => ⟨fun h => h.unique hsees, fun h => h ▸ hsees⟩, ?_, ?_, htexts, ?_,
    gives_pieces ts⟩
  · refine hsees.gives_explore _ (Nat.le_of_eq ?_)
    simp [steps, start, listText]
  · rw [← listVisit_eq_map]
    exact isTree_listVisit ts hts.nonempty
  · rw [← listVisit_eq_map, joined_listVisit]

/-- A dict entry and a struct in an array, each with a type behind it. -/
theorem walk_tree_nested : isWellFormed "a\x7bsv\x7da(ib)y" = true ∧ ∃ g : Signature,
    g.text = "a\x7bsv\x7da(ib)y" ∧ Gives g.explore
      [.mk 97 101 "a\x7bsv\x7d" (some [.mk 101 0 "\x7bsv\x7d"
          (some [.mk 115 0 "s" none, .mk 118 0 "v" none])]),
        .mk 97 114 "a(ib)" (some [.mk 114 0 "(ib)"
          (some [.mk 105 0 "i" none, .mk 98 0 "b" none])]),
        .mk 121 0 "y" none] := by
  have hs : isWellFormed "a\x7bsv\x7da(ib)y" = true := by decide +kernel
  obtain ⟨g, ts, hg, hread, -, hexplore, -⟩ := walk_tree Validator.exact_ofGrammar hs
  obtain rfl : [.dict .string .variant, .array (.struct [.basic .int32, .basic .boolean]),
      .basic .byte] = ts := Option.some.inj hread
  obtain rfl := (check_eq_ok_iff.mp hg).2.2
  exact ⟨hs, _, rfl, hexplore⟩

end Signature

end DBusHost
