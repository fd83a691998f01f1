import DBusHost.Proofs.Marshal.Offers
import DBusHost.Proofs.Marshal.Placement
import DBusHost.Proofs.Signature.WellFormed

/-!
# What is written

`Encodes v t x item` says that an item is a value written as a type.  Writing a value puts
one such item where it is written, or nothing at all if it fails; writing several values
puts one item for each.
-/

namespace DBusHost

/-- An item in a number of variants. -/
def Item.wrapped : Nat → Item → Item
  | 0, item => item
  | n + 1, item => .variant [wrapped n item]

mutual

/-- An item is a value written as a type. -/
inductive Encodes (v : Validator) : SigType → Value → Item → Prop
  | basic {b : BasicType} {x : Value} {c : Scalar} (h : b.cell v x = .ok c) :
      Encodes v (.basic b) x (.basic b.char c)
  | array {e : SigType} {x : Value} {xs : List Value} {items : List Item}
      (hx : x.sequence? = some xs)
      (h : EncodesAll v (List.replicate xs.length e) xs items) :
      Encodes v (.array e) x (.array e.text items)
  | dict {k : BasicType} {w : SigType} {x : Value} {es : List (Value × Value)}
      {items : List Item} (hx : x.entries? = some es) (h : EncodesEntries v k w es items) :
      Encodes v (.dict k w) x (.array (Marshal.entryText k w) items)
  | struct {fs : List SigType} {x : Value} {xs : List Value} {items : List Item}
      (hx : x.items? = some xs) (h : EncodesAll v fs xs items) :
      Encodes v (.struct fs) x (.struct items)
  | variant {x : Value} {s : String} {g : Signature} {t : SigType} {item : Item}
      (hguess : x.guessPlain v = .ok s) (hs : Signature.ofText v s = .ok g)
      (hread : readTypes? s = some [t]) (h : Encodes v t x item) :
      Encodes v .variant x (item.wrapped (x.level - 1 + 1))

/-- Items are values written as one type each. -/
inductive EncodesAll (v : Validator) : List SigType → List Value → List Item → Prop
  | nil : EncodesAll v [] [] []
  | cons {t : SigType} {ts : List SigType} {x : Value} {xs : List Value} {item : Item}
      {items : List Item} (h : Encodes v t x item) (hs : EncodesAll v ts xs items) :
      EncodesAll v (t :: ts) (x :: xs) (item :: items)

/-- Items are entries written as dict entries. -/
inductive EncodesEntries (v : Validator) :
    BasicType → SigType → List (Value × Value) → List Item → Prop
  | nil {k : BasicType} {w : SigType} : EncodesEntries v k w [] []
  | cons {k : BasicType} {w : SigType} {x y : Value} {es : List (Value × Value)}
      {pair items : List Item} (h : EncodesAll v [.basic k, w] [x, y] pair)
      (hs : EncodesEntries v k w es items) :
      EncodesEntries v k w ((x, y) :: es) (.dictEntry pair :: items)

end

namespace Marshal

open Writing

variable {v : Validator} {p : Place}

/-- After success the items are as `P` says, after a failure there are none. -/
def AllOrNothing (P : List Item → Prop) : Except Fault Unit → List Item → Prop
  | .ok _, items => P items
  | .error _, items => items = []

/-- After success the items are as `P` says. -/
def IfDone (P : List Item → Prop) : Except Fault Unit → List Item → Prop
  | .ok _, items => P items
  | .error _, _ => True

/-- One value is one item or none. -/
def WritesOne (v : Validator) (t : SigType) (x : Value) : Prop :=
  ∀ p, Adds p (write v t p x) (AllOrNothing fun items =>
    ∃ item, items = [item] ∧ Encodes v t x item)

theorem writesOne_basic (b : BasicType) (x : Value) : WritesOne v (.basic b) x := by
  intro p
  rw [write_basic, appendValue, BasicType.ofChar?_char]
  refine adds_lift (fun f _ => rfl) fun c hc => ?_
  refine (adds_appendBasic b.char c).mono ?_
  intro r items hitems
  cases r with
  | error f => exact hitems
  | ok a => exact ⟨_, hitems, .basic hc⟩

theorem adds_writeFields {ts : List SigType} {xs : List Value}
    (h : ∀ t ∈ ts, ∀ y ∈ xs, WritesOne v t y) (p : Place) :
    Adds p (writeFields v ts p xs) (IfDone (EncodesAll v ts xs)) := by
  induction xs generalizing ts with
  | nil =>
      cases ts with
      | nil => exact adds_pure .nil
      | cons t ts => exact adds_throw trivial
  | cons x xs ih =>
      cases ts with
      | nil => exact adds_throw trivial
      | cons t ts =>
          have hrest : ∀ u ∈ ts, ∀ y ∈ xs, WritesOne v u y :=
            fun u hu y hy => h u (by simp [hu]) y (by simp [hy])
          refine (h t (by simp) x (by simp) p).bind (fun _ _ _ => trivial) ?_
          rintro - - ⟨item, rfl, hitem⟩
          refine (ih hrest).mono ?_
          intro r items hitems
          cases r with
          | error f => trivial
          | ok a => exact .cons hitem hitems

theorem adds_writeEntries {k : BasicType} {w : SigType} {es : List (Value × Value)}
    (h : ∀ e ∈ es, WritesOne v (.basic k) e.1 ∧ WritesOne v w e.2) (p : Place) :
    Adds p (writeEntries v k w p es) (IfDone (EncodesEntries v k w es)) := by
  induction es with
  | nil => exact adds_pure .nil
  | cons e es ih =>
      obtain ⟨x, y⟩ := e
      obtain ⟨hx, hy⟩ := h (x, y) (by simp)
      have hpair : ∀ q, Adds q (do
          write v (.basic k) q x
          write v w q y) (IfDone (EncodesAll v [.basic k, w] [x, y])) := by
        intro q
        refine (hx q).bind (fun _ _ _ => trivial) ?_
        rintro - - ⟨key, rfl, hkey⟩
        refine (hy q).mono ?_
        intro r items hitems
        cases r with
        | error f => trivial
        | ok a =>
            obtain ⟨item, rfl, hitem⟩ := hitems
            exact .cons hkey (.cons hitem .nil)
      have hentry : Adds p (inContainer p .dictEntry none fun q => do
          write v (.basic k) q x
          write v w q y) (IfDone fun items => ∃ pair, items = [.dictEntry pair] ∧
            EncodesAll v [.basic k, w] [x, y] pair) :=
        adds_inContainer hpair (fun _ => trivial) fun pair h => ⟨pair, rfl, h⟩
      refine hentry.bind (fun _ _ _ => trivial) ?_
      rintro - - ⟨pair, rfl, hencodes⟩
      refine (ih fun f hf => h f (by simp [hf])).mono fun r items hitems => ?_
      cases r with
      | error f => trivial
      | ok a => exact .cons hencodes hitems

/-- A value in variants is one item, in one variant more than `outer` says. -/
theorem adds_writeVariant {x : Value}
    (h : ∀ s t ts, x.guessPlain v = .ok s → readTypes? s = some (t :: ts) →
      WritesOne v t x) (outer : Nat) (p : Place) :
    Adds p (writeVariant v x (Parts.ofValue v x) outer p) (AllOrNothing fun items =>
      ∃ s g t item, x.guessPlain v = .ok s ∧ Signature.ofText v s = .ok g ∧
        readTypes? s = some [t] ∧ Encodes v t x item ∧
        items = [item.wrapped (outer + 1)]) := by
  induction outer generalizing p with
  | zero =>
      refine adds_lift (fun f _ => rfl) fun s hguess => ?_
      refine adds_inContainer (Q := IfDone fun items => ∃ g t item,
        Signature.ofText v s = .ok g ∧ readTypes? s = some [t] ∧ Encodes v t x item ∧
          items = [item]) ?_ (fun _ => rfl) ?_
      · intro q
        refine adds_lift (fun _ _ => trivial) fun g hg => ?_
        refine adds_lift (fun _ _ => trivial) fun ts hts => ?_
        have hread := Signature.readTypes?_of_types hg hts
        rw [writeGuessed_eq hguess hread]
        cases ts with
        | nil => exact adds_throw trivial
        | cons t ts =>
            refine (h s t ts hguess hread q).bind (fun _ _ _ => trivial) ?_
            rintro - - ⟨item, rfl, hitem⟩
            cases ts with
            | nil => exact adds_pure ⟨g, t, item, hg, hread, hitem, rfl⟩
            | cons u us => exact adds_throw trivial
      · rintro items ⟨g, t, item, hg, hread, hitem, rfl⟩
        exact ⟨s, g, t, item, hguess, hg, hread, hitem, rfl⟩
  | succ outer ih =>
      refine adds_inContainer ih (fun _ => rfl) ?_
      rintro items ⟨s, g, t, item, hguess, hg, hread, hitem, rfl⟩
      exact ⟨s, g, t, item, hguess, hg, hread, hitem, rfl⟩

/-- Writing a value puts one item that is the value written as the type, or nothing. -/
theorem writesOne (t : SigType) (x : Value) : WritesOne v t x := by
  induction t, x using typed_induction v with
  | basic b x => exact writesOne_basic b x
  | array e x ih =>
      intro p
      cases hx : x.sequence? with
      | none =>
          rw [write_array_of_none hx]
          exact adds_throw rfl
      | some xs =>
          rw [write_array hx]
          refine (adds_call _).bind (fun _ _ h => h) ?_
          rintro - - rfl
          have hfill : ∀ q, Adds q (writeEach v e q xs)
              (IfDone (EncodesAll v (List.replicate xs.length e) xs)) := by
            intro q
            rw [writeEach_eq_writeFields]
            refine adds_writeFields (fun t ht y hy => ?_) q
            obtain rfl := List.eq_of_mem_replicate ht
            exact ih xs hx y hy
          exact adds_inContainer hfill (fun _ => rfl) fun items h => ⟨_, rfl, .array hx h⟩
  | dict k w x ih =>
      intro p
      cases hx : x.entries? with
      | none =>
          rw [write_dict_of_none hx]
          exact adds_throw rfl
      | some es =>
          rw [write_dict hx]
          refine (adds_call _).bind (fun _ _ h => h) ?_
          rintro - - rfl
          exact adds_inContainer (adds_writeEntries (ih es hx)) (fun _ => rfl)
            fun items h => ⟨_, rfl, .dict hx h⟩
  | struct fs x ih =>
      intro p
      cases hx : x.items? with
      | none =>
          rw [write_struct_of_none hx]
          exact adds_throw rfl
      | some xs =>
          rw [write_struct hx]
          exact adds_inContainer (adds_writeFields (ih xs hx)) (fun _ => rfl)
            fun items h => ⟨_, rfl, .struct hx h⟩
  | variant x ih =>
      intro p
      rw [write_variant]
      refine (adds_writeVariant ih _ p).mono ?_
      intro r items h
      cases r with
      | error f => exact h
      | ok a =>
          obtain ⟨s, g, t, item, hguess, hg, hread, hitem, rfl⟩ := h
          exact ⟨_, rfl, .variant hguess hg hread hitem⟩

end Marshal

/-! ## The text of what is written -/

theorem Item.chars_wrapped (n : Nat) (item : Item) : (item.wrapped (n + 1)).chars = ['v'] := by
  rw [wrapped, chars]

mutual

theorem Encodes.chars {v : Validator} : {t : SigType} → {x : Value} → {item : Item} →
    Encodes v t x item → item.chars = t.chars
  | _, _, _, .basic _ => rfl
  | _, _, _, .array _ _ => by simp [Item.chars, SigType.chars, SigType.text]
  | _, _, _, .dict _ _ => by simp [Item.chars, SigType.chars, Marshal.entryText]
  | _, _, _, .struct _ h => by simp [Item.chars, SigType.chars, h.listChars]
  | _, _, _, .variant _ _ _ _ => Item.chars_wrapped _ _

/-- The text of the items is the text of the types. -/
theorem EncodesAll.listChars {v : Validator} : {ts : List SigType} → {xs : List Value} →
    {items : List Item} → EncodesAll v ts xs items →
    Item.listChars items = SigType.listChars ts
  | _, _, _, .nil => rfl
  | _, _, _, .cons h hs => by
      simp [Item.listChars, SigType.listChars, h.chars, hs.listChars]

end

end DBusHost
