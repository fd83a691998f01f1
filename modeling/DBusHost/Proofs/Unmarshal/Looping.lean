import DBusHost.Message.Basic
import DBusHost.Proofs.Unmarshal.Denotation

/-!
# Reading a level item by item

A reader that is moved on until there is no item gives the values of its level, one for each
item and in their order.  It does so at the arguments of a message and inside every container,
also where a level is empty.  The arguments of a message are the same values, read at once.
-/

namespace DBusHost

open Attempt Item SigType

/-- Moving the reader on until there is no item gives the values, one at each item. -/
inductive Reader.Loops (v : Validator) : Reader → List Value → Prop
  | ended {r r' : Reader} {reason : EndReason} (h : r.advance = (some reason, r')) : Loops v r []
  | item {r r' : Reader} {y : Value} {ys : List Value} (h : r.advance = (none, r'))
      (hy : Gives (r'.object v (.int 0)) y) (hys : Loops v r' ys) : Loops v r (y :: ys)

theorem Item.HasType.code_ne_noType {t : SigType} {item : Item} (h : HasType t item) :
    item.code ≠ noType := by
  cases h with
  | basic => exact BasicType.typeCode_char_ne_noType _
  | array | dict => exact (by decide : ContainerKind.array.code ≠ noType)
  | struct => exact (by decide : ContainerKind.struct.code ≠ noType)
  | variant => exact (by decide : ContainerKind.variant.code ≠ noType)

namespace Reader

variable {v : Validator} {ts : List SigType} {items : List Item} {y : Value} {ys : List Value}

/-- The reader has been moved to an item that has others before and behind it. -/
def amid (front : List Item) (item : Item) (rest : List Item) : Reader :=
  ⟨front ++ item :: rest, front.length, false, false⟩

theorem current?_amid (front : List Item) (item : Item) (rest : List Item) :
    (amid front item rest).current? = some item := by
  simp [amid, current?]

theorem advance_amid (front : List Item) (item : Item) (rest : List Item) :
    (amid front item rest).advance =
      (if (amid front item rest).skip.code = noType then some .endOfMessage else none,
        (amid front item rest).skip) := rfl

theorem advance_amid_nil (front : List Item) (item : Item) :
    (amid front item []).advance = (some .endOfMessage, (amid front item []).skip) := by
  have hcode : (amid front item []).skip.code = noType := by
    simp [amid, skip, code, current?]
  rw [advance_amid, if_pos hcode]

theorem advance_amid_cons (front : List Item) (item next : Item) (rest : List Item)
    (h : next.code ≠ noType) :
    (amid front item (next :: rest)).advance = (none, amid (front ++ [item]) next rest) := by
  have hskip : (amid front item (next :: rest)).skip = amid (front ++ [item]) next rest := by
    simp [amid, skip]
  have hcode : (amid (front ++ [item]) next rest).code ≠ noType := by
    simpa [code, current?_amid] using h
  rw [advance_amid, hskip, if_neg hcode]

theorem Loops.cons (hv : v.Exact) {r r' : Reader} {t : SigType} {item : Item}
    (h : Denotes 0 t item y) (ht : Valid [t]) (hcurrent : r'.current? = some item)
    (hadvance : r.advance = (none, r')) (hrest : Loops v r' ys) : Loops v r (y :: ys) := by
  refine .item hadvance ?_ hrest
  rw [object, hcurrent]
  exact h.gives_read hv ht

/-- A reader that has been moved to an item loops over those behind it. -/
theorem loops_amid (hv : v.Exact) : {ts : List SigType} → {items : List Item} →
    {ys : List Value} → DenoteAll ts items ys → (∀ t ∈ ts, Valid [t]) →
    ∀ (front : List Item) (item : Item), Loops v (amid front item items) ys
  | _, _, _, .nil, _, front, item => .ended (advance_amid_nil front item)
  | _, next :: rest, _, .cons h hs, hts, front, item => by
      have hadvance := advance_amid_cons front item next rest h.hasType.code_ne_noType
      have hrest := loops_amid hv hs (fun t ht => hts t (by simp [ht])) (front ++ [item]) next
      exact .cons hv h (hts _ (by simp)) (current?_amid _ _ _) hadvance hrest

/-- A reader before the first item of a level loops over all of them. -/
theorem loops_fresh (hv : v.Exact) (h : DenoteAll ts items ys) (hts : ∀ t ∈ ts, Valid [t])
    {absent : Bool} (habsent : absent = true → items = []) :
    Loops v ⟨items, 0, true, absent⟩ ys := by
  cases h with
  | nil => cases absent <;> exact .ended rfl
  | @cons _ _ item rest _ _ h hs =>
      obtain rfl : absent = false := by simpa using habsent
      have hcode : (⟨item :: rest, 0, true, false⟩ : Reader).code ≠ noType :=
        h.hasType.code_ne_noType
      have hadvance : (⟨item :: rest, 0, true, false⟩ : Reader).advance =
          (none, amid [] item rest) := by
        change (if _ then _ else _, _) = _
        rw [if_neg hcode]
        rfl
      have hrest := loops_amid hv hs (fun t ht => hts t (by simp [ht])) [] item
      exact .cons hv h (hts _ (by simp)) (current?_amid _ _ _) hadvance hrest

theorem loops_ofBody (hv : v.Exact) (h : DenoteAll ts items ys) (hts : ∀ t ∈ ts, Valid [t]) :
    Loops v (ofBody items) ys := loops_fresh hv h hts (by simp)

end Reader

namespace Message

/-- While no native routine fails, all arguments of a message with a well-formed body can be
read.  There is one value for each, in their order, and they are what the body denotes.  A
reader that is moved on from before the first argument gives the same values. -/
theorem objects_denote {v : Validator} (hv : v.Exact) {m : Message} {ts : List SigType}
    (hts : Valid ts) (hbody : HaveTypes ts m.sheet.body) :
    ∃ ys, (m.objects v).run.run [] = (.ok ys, []) ∧ ys.length = m.sheet.body.length ∧
      (∀ zs, DenoteAll ts m.sheet.body zs ↔ zs = ys) ∧
      Reader.Loops v (.ofBody m.sheet.body) ys := by
  obtain ⟨ys, hys⟩ := hbody.denoteAll
  have hobjects := hys.gives_readEach hv hts.of_mem
  refine ⟨ys, hobjects, hys.length_eq, fun zs => ⟨fun hzs => ?_, ?_⟩,
    Reader.loops_ofBody hv hys hts.of_mem⟩
  · exact (hzs.gives_readEach hv hts.of_mem).unique hobjects
  · rintro rfl
    exact hys

/-- A key that comes twice keeps its place and takes the later value.  The array in the struct
is in one variant, whatever is around the struct, and the text has lost its three. -/
theorem objects_denote_entries : ∃ m : Message,
    m.sheet.body = [.array "\x7bsv\x7d"
      [.dictEntry [.basic 's' (.string "k"), (Item.array "i" []).wrapped 2],
        .dictEntry [.basic 's' (.string "l"), (Item.basic 's' (.string "x")).wrapped 3],
        .dictEntry [.basic 's' (.string "k"), (Item.struct
          [(Item.array "y" [.basic 'y' (.integer 7)]).wrapped 1]).wrapped 2]]] ∧
    Item.HaveTypes [.dict .string .variant] m.sheet.body ∧
    (m.objects .ofGrammar).run.run [] =
      (.ok [.dictionary
        [(.text "k", .struct [.array [.int 7] ⟨some ⟨"y"⟩, .count 1⟩] ⟨some ⟨"v"⟩, .count 2⟩),
          (.text "l", .text "x")]
        ⟨some ⟨"sv"⟩, .count 0⟩], []) := by
  obtain ⟨m, hm⟩ : ∃ m : Message, m.sheet.body = [.array "\x7bsv\x7d"
      [.dictEntry [.basic 's' (.string "k"), (Item.array "i" []).wrapped 2],
        .dictEntry [.basic 's' (.string "l"), (Item.basic 's' (.string "x")).wrapped 3],
        .dictEntry [.basic 's' (.string "k"), (Item.struct
          [(Item.array "y" [.basic 'y' (.integer 7)]).wrapped 1]).wrapped 2]]] :=
    ⟨{ kind := 1, sheet := .ofBody _ }, rfl⟩
  have hts : Valid [.dict .string .variant] := by constructor <;> decide
  have hempty : Denotes 0 .variant ((Item.array "i" []).wrapped 2)
      (.array [] ⟨some ⟨"i"⟩, .count 2⟩) :=
    .variant (by simp) (by constructor <;> decide) (.array (e := .basic .int32) .nil)
  have htext : Denotes 0 .variant ((Item.basic 's' (.string "x")).wrapped 3) (.text "x") :=
    .variant (by simp) (by constructor <;> decide)
      (.basic (b := .string) ⟨"x", rfl, by decide⟩ ⟨"x", rfl, rfl⟩)
  have hseven : Denotes 0 .variant ((Item.array "y" [.basic 'y' (.integer 7)]).wrapped 1)
      (.array [.int 7] ⟨some ⟨"y"⟩, .count 1⟩) :=
    .variant (by simp) (by constructor <;> decide) (.array (e := .basic .byte)
      (.cons (.basic (b := .byte) ⟨7, rfl, rfl⟩ ⟨7, rfl, rfl⟩) .nil))
  have hstruct : Denotes 0 .variant ((Item.struct
      [(Item.array "y" [.basic 'y' (.integer 7)]).wrapped 1]).wrapped 2)
      (.struct [.array [.int 7] ⟨some ⟨"y"⟩, .count 1⟩] ⟨some ⟨"v"⟩, .count 2⟩) :=
    .variant (by simp) (by constructor <;> decide)
      (@Denotes.struct _ [.variant] _ _ (.cons hseven .nil))
  have hkey : ∀ s, Text.hasNul s = false → BasicType.string.Holds (.string s) :=
    fun s hs => ⟨s, rfl, hs⟩
  have hdenote : DenoteAll [.dict .string .variant] m.sheet.body [.dictionary
      [(.text "k", .struct [.array [.int 7] ⟨some ⟨"y"⟩, .count 1⟩] ⟨some ⟨"v"⟩, .count 2⟩),
        (.text "l", .text "x")]
      ⟨some ⟨"sv"⟩, .count 0⟩] := by
    rw [hm]
    refine .cons (.dict (.cons (hkey "k" (by decide)) ⟨"k", rfl, rfl⟩ hempty
      (.cons (hkey "l" (by decide)) ⟨"l", rfl, rfl⟩ htext
        (.cons (hkey "k" (by decide)) ⟨"k", rfl, rfl⟩ hstruct .nil)))
      (.cons (.cons .nil))) .nil
  obtain ⟨ys, hobjects, -, hiff, -⟩ :=
    objects_denote Validator.exact_ofGrammar hts hdenote.haveTypes
  exact ⟨m, hm, hdenote.haveTypes, (hiff _).mp hdenote ▸ hobjects⟩

end Message

end DBusHost
