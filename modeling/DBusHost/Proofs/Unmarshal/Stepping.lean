import DBusHost.Proofs.Signature.Stepping
import DBusHost.Proofs.Unmarshal.Looping

/-!
# Moving on over arguments

A reader that is moved on comes to every item of its level once, and then it ends however often
one tries.  It does so before the arguments of a message, of which there may be none, and inside
every container, which may be empty.
-/

namespace DBusHost

open Item

namespace Item

/-- The type code of the item is not the one that stands for the end of a level. -/
def HasCode (item : Item) : Prop := item.code ≠ noType

theorem everywhere_hasCode_basic {b : BasicType} {c : Scalar} (h : b.Holds c) :
    Everywhere HasCode [.basic b.char c] :=
  everywhere_singleton.mpr ⟨(HasType.basic h).code_ne_noType, everywhere_nil⟩

mutual

theorem HasType.everywhere_hasCode : {t : SigType} → {item : Item} → HasType t item →
    Everywhere HasCode [item]
  | _, _, .basic h => everywhere_hasCode_basic h
  | _, _, .array h =>
      everywhere_singleton.mpr ⟨(HasType.array h).code_ne_noType, h.everywhere_hasCode⟩
  | _, _, .dict h =>
      everywhere_singleton.mpr ⟨(HasType.dict h).code_ne_noType, h.everywhere_hasCode⟩
  | _, _, .struct h =>
      everywhere_singleton.mpr ⟨(HasType.struct h).code_ne_noType, h.everywhere_hasCode⟩
  | _, _, .variant _ _ h => by
      have hvariant : ContainerKind.variant.code ≠ noType := by decide
      exact (everywhere_wrapped _).mpr ⟨fun _ _ => hvariant, h.everywhere_hasCode⟩

theorem HaveTypes.everywhere_hasCode : {ts : List SigType} → {items : List Item} →
    HaveTypes ts items → Everywhere HasCode items
  | _, _, .nil => everywhere_nil
  | _, _, .cons h hs => everywhere_cons.mpr ⟨h.everywhere_hasCode, hs.everywhere_hasCode⟩

theorem HaveEntries.everywhere_hasCode : {k : BasicType} → {w : SigType} → {items : List Item} →
    HaveEntries k w items → Everywhere HasCode items
  | _, _, _, .nil => everywhere_nil
  | _, _, _, .cons hkey h hs => by
      have hentry : ContainerKind.dictEntry.code ≠ noType := by decide
      have hinside := everywhere_cons.mpr ⟨everywhere_hasCode_basic hkey, h.everywhere_hasCode⟩
      exact everywhere_cons.mpr
        ⟨everywhere_singleton.mpr ⟨hentry, hinside⟩, hs.everywhere_hasCode⟩

end

end Item

namespace Reader

/-- The reader after it has been moved on a number of times, or has tried to. -/
def after (r : Reader) (calls : Nat) : Reader := (fun r => r.advance.2)^[calls] r

/-- The reader is new and is before the items of a level of a message with a well-formed body:
before its arguments, or inside an item that one can come to on another level. -/
inductive OnLevel : Reader → List Item → Prop
  | top {ts : List SigType} {items : List Item} (hts : SigType.Valid ts)
      (h : HaveTypes ts items) : OnLevel (ofBody items) items
  | inside {r : Reader} {items : List Item} {calls : Nat} {item : Item} (h : OnLevel r items)
      (hitem : (r.after calls).current? = some item) :
      OnLevel (r.after calls).inside item.inside

/-- Moving on over a level comes to every item once, and stays at the end. -/
structure VisitsOnce (r : Reader) (items : List Item) : Prop where
  /-- A call for each item comes to it. -/
  visits (k : Nat) (item : Item) : items[k]? = some item →
    ∃ d, (r.after k).advance = (none, d) ∧ d.current? = some item ∧ d.position = k
  /-- All later calls find nothing to go to. -/
  ends (k : Nat) : items.length ≤ k → ∃ reason d, (r.after k).advance = (some reason, d)

variable {r : Reader} {items : List Item} {item : Item} {k : Nat}

/-- The reader is new and has the items of the level before it, all of which have a code. -/
structure Spans (r : Reader) (items : List Item) : Prop where
  level : r.level = items
  position : r.position = 0
  fresh : r.fresh = true
  absent : r.absent = true → items = []
  codes : Everywhere HasCode items

theorem after_succ (r : Reader) (k : Nat) : r.after (k + 1) = (r.after k).advance.2 :=
  Function.iterate_succ_apply' (fun r : Reader => r.advance.2) k r

/-- A reader that has been moved on stands on an item or behind the last one. -/
theorem Spans.after_succ_eq (h : Spans r items) (habsent : r.absent = false) (k : Nat) :
    r.after (k + 1) = ⟨items, min k items.length, false, false⟩ := by
  induction k with
  | zero =>
      obtain ⟨level, position, fresh, absent⟩ := r
      obtain rfl := h.level
      obtain rfl := h.position
      obtain rfl := h.fresh
      obtain rfl := habsent
      rw [Nat.zero_min]
      rfl
  | succ k ih =>
      have hmin : min (min k items.length + 1) items.length = min (k + 1) items.length := by omega
      rw [after_succ, ih]
      change Reader.mk _ _ _ _ = _
      rw [hmin]

/-- There is an item at each position before the end, and none with a code behind it. -/
theorem code_moved (hcodes : Everywhere HasCode items) (k : Nat) :
    (⟨items, min k items.length, false, false⟩ : Reader).code = noType ↔ items.length ≤ k := by
  by_cases hk : k < items.length
  · have hcode : items[k].code ≠ noType := hcodes _ (.self (List.getElem_mem hk))
    have hmin : min k items.length = k := by omega
    simp [code, current?, hmin, hk, hcode]
  · simp [code, current?, noType, Nat.not_lt.mp hk]

/-- A reader that has been moved on goes to the next item, until there is none. -/
theorem Spans.advance_after_succ (h : Spans r items) (habsent : r.absent = false) (k : Nat) :
    (r.after (k + 1)).advance =
      (if items.length ≤ k + 1 then some .endOfMessage else none,
        ⟨items, min (k + 1) items.length, false, false⟩) := by
  have hmin : min (min k items.length + 1) items.length = min (k + 1) items.length := by omega
  have hadvance : (⟨items, min k items.length, false, false⟩ : Reader).advance =
      (if (⟨items, min (min k items.length + 1) items.length, false, false⟩ : Reader).code = noType
        then some .endOfMessage else none,
        ⟨items, min (min k items.length + 1) items.length, false, false⟩) := rfl
  rw [h.after_succ_eq habsent, hadvance, hmin]
  simp only [code_moved h.codes]

/-- A new reader goes to the first item, if there is one. -/
theorem Spans.advance_fresh (h : Spans r items) (habsent : r.absent = false) :
    r.advance = (if items.length ≤ 0 then some .emptyContainer else none,
      ⟨items, 0, false, false⟩) := by
  have hcode := code_moved h.codes 0
  obtain ⟨level, position, fresh, absent⟩ := r
  obtain rfl := h.level
  obtain rfl := h.position
  obtain rfl := h.fresh
  obtain rfl := habsent
  have hadvance : (⟨level, 0, true, false⟩ : Reader).advance =
      (if (⟨level, 0, false, false⟩ : Reader).code = noType then some .emptyContainer else none,
        ⟨level, 0, false, false⟩) := rfl
  rw [Nat.zero_min] at hcode
  rw [hadvance]
  simp only [hcode]

/-- Where a message has no arguments the reader does not move. -/
theorem after_of_absent (habsent : r.absent = true) (k : Nat) : r.after k = r := by
  induction k with
  | zero => rfl
  | succ k ih => rw [after_succ, ih, advance, if_pos habsent]

theorem Spans.visitsOnce (h : Spans r items) : VisitsOnce r items where
  visits k item hitem := by
    have hk : k < items.length := (List.getElem?_eq_some_iff.mp hitem).1
    have habsent : r.absent = false := by
      by_contra habsent
      simp [h.absent (by simpa using habsent)] at hk
    have hmin : min k items.length = k := by omega
    refine ⟨⟨items, k, false, false⟩, ?_, hitem, rfl⟩
    cases k with
    | zero => rw [after, Function.iterate_zero, id, h.advance_fresh habsent, if_neg (by omega)]
    | succ k => rw [h.advance_after_succ habsent, if_neg (by omega), hmin]
  ends k hk := by
    cases habsent : r.absent with
    | true => exact ⟨_, _, by rw [after_of_absent habsent, advance, if_pos habsent]⟩
    | false =>
        cases k with
        | zero =>
            exact ⟨_, _, by rw [after, Function.iterate_zero, id, h.advance_fresh habsent,
              if_pos hk]⟩
        | succ k => exact ⟨_, _, by rw [h.advance_after_succ habsent, if_pos hk]⟩

theorem level_advance (r : Reader) : r.advance.2.level = r.level := by
  unfold advance
  split
  · rfl
  · split <;> rfl

theorem level_after (r : Reader) (k : Nat) : (r.after k).level = r.level := by
  induction k with
  | zero => rfl
  | succ k ih => rw [after_succ, level_advance, ih]

theorem OnLevel.spans (h : OnLevel r items) : Spans r items := by
  induction h with
  | top hts h =>
      exact ⟨rfl, rfl, rfl, by simp [ofBody], h.everywhere_hasCode⟩
  | @inside r items calls item h hitem ih =>
      have hlevel := (level_after r calls).trans ih.level
      have hmem : item ∈ items := hlevel ▸ List.mem_of_getElem? hitem
      have hinside : (r.after calls).inside = ⟨item.inside, 0, true, false⟩ := by
        simp [Reader.inside, hitem]
      rw [hinside]
      exact ⟨rfl, rfl, rfl, by simp, fun y hy => ih.codes y (.inside hmem hy)⟩

end Reader

/-- Moving on over a level of a well-formed signature, or over the arguments of a message with a
well-formed body or the items in a container, comes to each position once, in order, and stays
exhausted.  For a signature, however the two ways to move on are mixed, nothing is come to again
and nothing after a loop has ended. -/
theorem levels_visited_once :
    (∀ c nodes, Cursor.OnLevel c nodes → ∃ stops, Cursor.VisitsOnce c nodes stops) ∧
      ∀ r items, Reader.OnLevel r items → Reader.VisitsOnce r items :=
  ⟨fun _ _ h => ⟨_, h.visitsOnce⟩, fun _ _ h => h.spans.visitsOnce⟩

/-- An array and a struct in a signature, and an array without elements among two arguments. -/
theorem levels_visited_once_empty :
    (∃ nodes, nodes.length = 2 ∧ Cursor.OnLevel (Cursor.start ⟨"ai(yv)"⟩) nodes ∧
      ∃ stops, Cursor.VisitsOnce (Cursor.start ⟨"ai(yv)"⟩) nodes stops) ∧
    ∃ body, body = [Item.array "i" [], .basic 'y' (.integer 7)] ∧
      Reader.OnLevel (.ofBody body) body ∧ Reader.VisitsOnce (.ofBody body) body ∧
      Reader.OnLevel ((Reader.ofBody body).after 1).inside [] ∧
      Reader.VisitsOnce ((Reader.ofBody body).after 1).inside [] := by
  have hsignature : Cursor.OnLevel (Cursor.start ⟨"ai(yv)"⟩)
      ([.array (.basic .int32), .struct [.basic .byte, .variant]].map SigType.visit) :=
    .top (by decide +kernel) rfl
  have hbody : HaveTypes [.array (.basic .int32), .basic .byte]
      [Item.array "i" [], .basic 'y' (.integer 7)] :=
    .cons (.array (e := .basic .int32) .nil) (.cons (.basic (b := .byte) ⟨7, rfl, rfl⟩) .nil)
  have harguments : Reader.OnLevel (.ofBody [.array "i" [], .basic 'y' (.integer 7)]) _ :=
    .top (by constructor <;> decide) hbody
  have hempty : Reader.OnLevel (((Reader.ofBody [.array "i" [], .basic 'y' (.integer 7)]).after
      1).inside) [] := @Reader.OnLevel.inside _ _ 1 (.array "i" []) harguments rfl
  exact ⟨⟨_, rfl, hsignature, levels_visited_once.1 _ _ hsignature⟩, _, rfl,
    harguments, levels_visited_once.2 _ _ harguments, hempty, levels_visited_once.2 _ _ hempty⟩

end DBusHost
