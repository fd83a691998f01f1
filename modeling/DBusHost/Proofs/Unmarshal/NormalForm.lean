import DBusHost.Container.Entries
import DBusHost.Proofs.Marshal.Offers

/-!
# Normal forms

The normal form of a value as a type is what a reader of the message gets.  Numbers and
texts get the kind that belongs to the type, and every collection becomes a typed container
with the signature of its contents.  A variant gives the normal form as the type that is
guessed for the value; only containers keep the number of variants around them.

`Normal v n t x y` is a relation, because the guessed type need not be one type, but it is
a partial function of the value.
-/

namespace DBusHost

namespace Value

/-- A value is the second one or somewhere in it. -/
inductive Inside (y : Value) : Value → Prop
  | self : Inside y y
  | item {x z : Value} {xs : List Value} (hx : x.sequence? = some xs) (hz : z ∈ xs)
      (h : Inside y z) : Inside y x
  | key {x : Value} {e : Value × Value} {es : List (Value × Value)}
      (hx : x.entries? = some es) (he : e ∈ es) (h : Inside y e.1) : Inside y x
  | entry {x : Value} {e : Value × Value} {es : List (Value × Value)}
      (hx : x.entries? = some es) (he : e ∈ es) (h : Inside y e.2) : Inside y x

/-- No text in the value has a nul, and the signatures in it have been accepted by the
validator, as every signature is when it is made. -/
structure Clean (v : Validator) (x : Value) : Prop where
  nulFree : ∀ y s, Inside y x → y.text? = some s → Text.hasNul s = false
  accepted : ∀ g, Inside (.signature g) x → v.sequence g.text = .valid

namespace Clean

variable {v : Validator} {x : Value}

theorem of_inside {z : Value} (h : Clean v x) (hz : ∀ y, Inside y z → Inside y x) :
    Clean v z :=
  ⟨fun y s hy => h.nulFree y s (hz y hy), fun g hg => h.accepted g (hz _ hg)⟩

theorem item {xs : List Value} (h : Clean v x) (hx : x.sequence? = some xs) :
    ∀ z ∈ xs, Clean v z := fun _ hz => h.of_inside fun _ hy => .item hx hz hy

theorem key {es : List (Value × Value)} (h : Clean v x) (hx : x.entries? = some es) :
    ∀ e ∈ es, Clean v e.1 := fun _ he => h.of_inside fun _ hy => .key hx he hy

theorem entry {es : List (Value × Value)} (h : Clean v x) (hx : x.entries? = some es) :
    ∀ e ∈ es, Clean v e.2 := fun _ he => h.of_inside fun _ hy => .entry hx he hy

end Clean

section

variable {v : Validator} {x : Value}

/-- A value is clean if it is no text with a nul and no signature that was not accepted, and
what is in it is clean. -/
theorem clean_of_parts (htext : ∀ s, x.text? = some s → Text.hasNul s = false)
    (hsignature : ∀ g, x = .signature g → v.sequence g.text = .valid)
    (hitems : ∀ xs, x.sequence? = some xs → ∀ z ∈ xs, Clean v z)
    (hentries : ∀ es, x.entries? = some es → ∀ e ∈ es, Clean v e.1 ∧ Clean v e.2) :
    Clean v x := by
  constructor
  · intro y s hy hs
    cases hy with
    | self => exact htext s hs
    | item hx hz hy => exact (hitems _ hx _ hz).nulFree y s hy hs
    | key hx he hy => exact (hentries _ hx _ he).1.nulFree y s hy hs
    | entry hx he hy => exact (hentries _ hx _ he).2.nulFree y s hy hs
  · intro g hg
    generalize hz : Value.signature g = z at hg
    cases hg with
    | self => exact hsignature g hz.symm
    | item hx hm hy => exact (hitems _ hx _ hm).accepted g (hz ▸ hy)
    | key hx he hy => exact (hentries _ hx _ he).1.accepted g (hz ▸ hy)
    | entry hx he hy => exact (hentries _ hx _ he).2.accepted g (hz ▸ hy)

theorem clean_of_integer {i : Int} (h : x.integer? = some i) : Clean v x := by
  apply clean_of_parts <;> cases x <;>
    simp [integer?, text?, sequence?, items?, bytes?, entries?] at h ⊢

theorem clean_text {s : String} (h : Text.hasNul s = false) : Clean v (.text s) := by
  apply clean_of_parts <;> simp [text?, sequence?, items?, bytes?, entries?, h]

theorem clean_list {xs : List Value} (h : ∀ z ∈ xs, Clean v z) : Clean v (.list xs) := by
  apply clean_of_parts
  · simp [text?]
  · simp
  · simpa [sequence?, items?] using h
  · simp [entries?]

theorem clean_map {es : List (Value × Value)} (h : ∀ e ∈ es, Clean v e.1 ∧ Clean v e.2) :
    Clean v (.map es) := by
  apply clean_of_parts
  · simp [text?]
  · simp
  · simp [sequence?, items?, bytes?]
  · simpa [entries?] using h

end

end Value

/-- The entries of a map into which pairs are put one after the other. -/
def Entries.ofPairs (ps : List (Value × Value)) : List (Value × Value) :=
  ps.foldl (fun es p => insert es p.1 p.2) []

/-- The normal form of a value as a basic type. -/
def BasicType.Normal (v : Validator) (x y : Value) : BasicType → Prop
  | byte | int16 | uint16 | int32 | uint32 | int64 | uint64 =>
      ∃ i, x.integer? = some i ∧ y = .int i
  | boolean => y = .bool x.truth
  | double => ∃ d, x.toDouble = .ok d ∧ y = .double d
  | string => ∃ s, x.text? = some s ∧ y = .text s
  | objectPath => ∃ s, x.text? = some s ∧ y = .path s
  | signature => ∃ g, Signature.ofValue v x = .ok g ∧ y = .signature g
  | unixFd => ∃ i, x.integer? = some i ∧ y = .descriptor i

mutual

/-- The normal form of a value as a type, inside a number of variants. -/
inductive Normal (v : Validator) : Nat → SigType → Value → Value → Prop
  | basic {n : Nat} {b : BasicType} {x y : Value} (h : b.Normal v x y) :
      Normal v n (.basic b) x y
  | array {n : Nat} {e : SigType} {x : Value} {xs ys : List Value}
      (hx : x.sequence? = some xs) (h : NormalAll v (List.replicate xs.length e) xs ys) :
      Normal v n (.array e) x (.array ys ⟨some ⟨e.text⟩, .count n⟩)
  | dict {n : Nat} {k : BasicType} {w : SigType} {x : Value}
      {es fs : List (Value × Value)} (hx : x.entries? = some es)
      (h : NormalEntries v k w es fs) :
      Normal v n (.dict k w) x
        (.dictionary (Entries.ofPairs fs) ⟨some ⟨SigType.listText [.basic k, w]⟩, .count n⟩)
  | struct {n : Nat} {ts : List SigType} {x : Value} {xs ys : List Value}
      (hx : x.items? = some xs) (h : NormalAll v ts xs ys) :
      Normal v n (.struct ts) x (.struct ys ⟨some ⟨SigType.listText ts⟩, .count n⟩)
  | variant {n : Nat} {x y : Value} {s : String} {t : SigType}
      (hguess : x.guessPlain v = .ok s) (hread : readTypes? s = some [t])
      (h : Normal v (n + max x.level 1) t x y) : Normal v n .variant x y

/-- The normal forms of values as one type each, inside no variants. -/
inductive NormalAll (v : Validator) : List SigType → List Value → List Value → Prop
  | nil : NormalAll v [] [] []
  | cons {t : SigType} {ts : List SigType} {x y : Value} {xs ys : List Value}
      (h : Normal v 0 t x y) (hs : NormalAll v ts xs ys) :
      NormalAll v (t :: ts) (x :: xs) (y :: ys)

/-- The normal forms of keys and values, inside no variants. -/
inductive NormalEntries (v : Validator) :
    BasicType → SigType → List (Value × Value) → List (Value × Value) → Prop
  | nil {k : BasicType} {w : SigType} : NormalEntries v k w [] []
  | cons {k : BasicType} {w : SigType} {x x' y y' : Value} {es fs : List (Value × Value)}
      (hkey : k.Normal v x y) (h : Normal v 0 w x' y') (hs : NormalEntries v k w es fs) :
      NormalEntries v k w ((x, x') :: es) ((y, y') :: fs)

end

/-! ## A value has one normal form at most -/

theorem BasicType.Normal.unique {v : Validator} {b : BasicType} {x y z : Value}
    (hy : b.Normal v x y) (hz : b.Normal v x z) : y = z := by
  cases b with
  | boolean => exact hy.trans hz.symm
  | double | signature =>
      obtain ⟨a, ha, rfl⟩ := hy
      obtain ⟨c, hc, rfl⟩ := hz
      obtain rfl := Except.ok.inj (ha.symm.trans hc)
      rfl
  | _ =>
      obtain ⟨a, ha, rfl⟩ := hy
      obtain ⟨c, hc, rfl⟩ := hz
      obtain rfl := Option.some.inj (ha.symm.trans hc)
      rfl

mutual

theorem Normal.unique {v : Validator} : {n : Nat} → {t : SigType} → {x y z : Value} →
    Normal v n t x y → Normal v n t x z → y = z
  | _, _, _, _, _, .basic h, .basic h' => h.unique h'
  | _, _, _, _, _, .array hx h, .array hx' h' => by
      obtain rfl := Option.some.inj (hx.symm.trans hx')
      rw [h.unique h']
  | _, _, _, _, _, .dict hx h, .dict hx' h' => by
      obtain rfl := Option.some.inj (hx.symm.trans hx')
      rw [h.unique h']
  | _, _, _, _, _, .struct hx h, .struct hx' h' => by
      obtain rfl := Option.some.inj (hx.symm.trans hx')
      rw [h.unique h']
  | _, _, _, _, _, .variant hguess hread h, .variant hguess' hread' h' => by
      obtain rfl := Except.ok.inj (hguess.symm.trans hguess')
      obtain rfl := List.head_eq_of_cons_eq (Option.some.inj (hread.symm.trans hread'))
      exact h.unique h'

theorem NormalAll.unique {v : Validator} : {ts : List SigType} → {xs ys zs : List Value} →
    NormalAll v ts xs ys → NormalAll v ts xs zs → ys = zs
  | _, _, _, _, .nil, .nil => rfl
  | _, _, _, _, .cons h hs, .cons h' hs' => by rw [h.unique h', hs.unique hs']

theorem NormalEntries.unique {v : Validator} : {k : BasicType} → {w : SigType} →
    {es fs gs : List (Value × Value)} →
    NormalEntries v k w es fs → NormalEntries v k w es gs → fs = gs
  | _, _, _, _, _, .nil, .nil => rfl
  | _, _, _, _, _, .cons hkey h hs, .cons hkey' h' hs' => by
      rw [hkey.unique hkey', h.unique h', hs.unique hs']

end

end DBusHost
