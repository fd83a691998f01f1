import DBusHost.Proofs.Signature.Carried
import DBusHost.Proofs.Unmarshal.NormalForm

/-!
# Homogeneous values

The type of a list is guessed from its first element alone, and that of a map from its first
entry.  A value is homogeneous if this does not matter anywhere in it: the elements of each list
are guessed alike, and so are the keys of each map and its values.

Such a value comes back from a message as its decoded form.  All of its collections have become
typed containers that carry the signature that was guessed for their contents, and its bytes have
become arrays of numbers; apart from this it is the same.
-/

namespace DBusHost

namespace Value

/-- The value is no container that carries a signature. -/
def Bare (x : Value) : Prop := ∀ t, x.tag? = some t → t.signature = none

/-- A signature is guessed for the value without the variants around it, and accepted. -/
def Guesses (v : Validator) (x : Value) : Prop :=
  ∃ s g, x.guessPlain v = .ok s ∧ Signature.ofText v s = .ok g

/-- The same is guessed for all of the values. -/
def GuessedAlike (v : Validator) (xs : List Value) : Prop :=
  ∀ x ∈ xs, ∀ y ∈ xs, x.guess v = y.guess v

/-- Values whose collections are each guessed from their first items as from any others.  The
collections are not empty, since nothing is guessed for an empty one, and no two keys of a map are
the same. -/
inductive Homogeneous (v : Validator) : Value → Prop
  | bool (b : Bool) : Homogeneous v (.bool b)
  | int {i : Int} (h : -2147483648 ≤ i ∧ i ≤ 2147483647) : Homogeneous v (.int i)
  | descriptor {i : Int} (h : -2147483648 ≤ i ∧ i ≤ 2147483647) : Homogeneous v (.descriptor i)
  | double {d : Binary64} (h : d.isNaN = false) : Homogeneous v (.double d)
  | text {s : String} (h : Text.hasNul s = false) : Homogeneous v (.text s)
  | path {s : String} (h : Text.hasNul s = false) : Homogeneous v (.path s)
  | signature {g : Signature} (h : g.Accepted v) : Homogeneous v (.signature g)
  | bytes (bs : List UInt8) : Homogeneous v (.bytes bs)
  | buffer (bs : List UInt8) : Homogeneous v (.buffer bs)
  | list {x : Value} {xs : List Value} (hx : x.listItems? = some xs) (hbare : x.Bare)
      (hguess : x.Guesses v) (halike : GuessedAlike v xs) (h : ∀ y ∈ xs, Homogeneous v y) :
      Homogeneous v x
  | tuple {x : Value} {xs : List Value} (hx : x.tupleItems? = some xs) (hbare : x.Bare)
      (hguess : x.Guesses v) (h : ∀ y ∈ xs, Homogeneous v y) : Homogeneous v x
  | map {x : Value} {es : List (Value × Value)} (hx : x.entries? = some es) (hbare : x.Bare)
      (hguess : x.Guesses v) (hdiffer : es.Pairwise fun e f => f.1.same e.1 = false)
      (hkeys : GuessedAlike v (es.map Prod.fst)) (hvalues : GuessedAlike v (es.map Prod.snd))
      (hkey : ∀ e ∈ es, Homogeneous v e.1) (hvalue : ∀ e ∈ es, Homogeneous v e.2) :
      Homogeneous v x

/-! ## Decoded values -/

/-- The signature that is guessed for values, one after the other. -/
def guessedFor (v : Validator) (xs : List Value) : Option Signature :=
  (guessAll v xs).toOption.map Signature.mk

/-- The key and the value of the first entry. -/
def firstEntry (es : List (Value × Value)) : List Value :=
  (es.take 1).flatMap fun e => [e.1, e.2]

mutual

/-- What a value comes back as. -/
def decoded (v : Validator) : Value → Value
  | list xs => array (decodedAll v xs) ⟨guessedFor v (xs.take 1), .count 0⟩
  | array xs t => array (decodedAll v xs) ⟨guessedFor v (xs.take 1), .count t.level.toNat⟩
  | tuple xs => struct (decodedAll v xs) ⟨guessedFor v xs, .count 0⟩
  | struct xs t => struct (decodedAll v xs) ⟨guessedFor v xs, .count t.level.toNat⟩
  | map es => dictionary (decodedEntries v es) ⟨guessedFor v (firstEntry es), .count 0⟩
  | dictionary es t =>
    dictionary (decodedEntries v es) ⟨guessedFor v (firstEntry es), .count t.level.toNat⟩
  | bytes bs | buffer bs => array (bs.map ofByte) ⟨some ⟨"y"⟩, .count 0⟩
  | x => x
termination_by structural x => x

def decodedAll (v : Validator) : List Value → List Value
  | [] => []
  | x :: xs => x.decoded v :: decodedAll v xs
termination_by structural xs => xs

def decodedEntries (v : Validator) : List (Value × Value) → List (Value × Value)
  | [] => []
  | (k, x) :: es => (k.decoded v, x.decoded v) :: decodedEntries v es
termination_by structural es => es

end

mutual

/-- The value with all bytes in it read as lists of their numbers. -/
def bytesRead : Value → Value
  | list xs => list (bytesReadAll xs)
  | array xs t => array (bytesReadAll xs) t
  | tuple xs => tuple (bytesReadAll xs)
  | struct xs t => struct (bytesReadAll xs) t
  | map es => map (bytesReadEntries es)
  | dictionary es t => dictionary (bytesReadEntries es) t
  | bytes bs | buffer bs => list (bs.map ofByte)
  | x => x
termination_by structural x => x

def bytesReadAll : List Value → List Value
  | [] => []
  | x :: xs => x.bytesRead :: bytesReadAll xs
termination_by structural xs => xs

def bytesReadEntries : List (Value × Value) → List (Value × Value)
  | [] => []
  | (k, x) :: es => (k.bytesRead, x.bytesRead) :: bytesReadEntries es
termination_by structural es => es

end

section

variable {v : Validator} {x y : Value}

theorem decodedAll_eq_map (v : Validator) (xs : List Value) :
    decodedAll v xs = xs.map (decoded v) := by
  induction xs with
  | nil => rfl
  | cons x xs ih => rw [decodedAll, ih, List.map_cons]

theorem decodedEntries_eq_map (v : Validator) (es : List (Value × Value)) :
    decodedEntries v es = es.map fun e => (e.1.decoded v, e.2.decoded v) := by
  induction es with
  | nil => rfl
  | cons e es ih => rw [decodedEntries, ih, List.map_cons]

theorem bytesReadAll_eq_map (xs : List Value) : bytesReadAll xs = xs.map bytesRead := by
  induction xs with
  | nil => rfl
  | cons x xs ih => rw [bytesReadAll, ih, List.map_cons]

theorem bytesReadEntries_eq_map (es : List (Value × Value)) :
    bytesReadEntries es = es.map fun e => (e.1.bytesRead, e.2.bytesRead) := by
  induction es with
  | nil => rfl
  | cons e es ih => rw [bytesReadEntries, ih, List.map_cons]

theorem decoded_list {xs : List Value} (hx : x.listItems? = some xs) : x.decoded v =
    array (xs.map (decoded v)) ⟨guessedFor v (xs.take 1), .count x.level⟩ := by
  cases x <;> simp only [listItems?, reduceCtorEq, Option.some.injEq] at hx <;> subst hx <;>
    simp only [decoded, decodedAll_eq_map] <;> rfl

theorem decoded_tuple {xs : List Value} (hx : x.tupleItems? = some xs) : x.decoded v =
    struct (xs.map (decoded v)) ⟨guessedFor v xs, .count x.level⟩ := by
  cases x <;> simp only [tupleItems?, reduceCtorEq, Option.some.injEq] at hx <;> subst hx <;>
    simp only [decoded, decodedAll_eq_map] <;> rfl

theorem decoded_map {es : List (Value × Value)} (hx : x.entries? = some es) : x.decoded v =
    dictionary (es.map fun e => (e.1.decoded v, e.2.decoded v))
      ⟨guessedFor v (firstEntry es), .count x.level⟩ := by
  cases x <;> simp only [entries?, reduceCtorEq, Option.some.injEq] at hx <;> subst hx <;>
    simp only [decoded, decodedEntries_eq_map] <;> rfl

/-- A value that is no collection comes back as it is. -/
theorem decoded_eq_self (hx : x.sequence? = none) (hentries : x.entries? = none) :
    x.decoded v = x := by
  cases x <;> simp [sequence?, items?, bytes?, entries?] at hx hentries <;> rfl

theorem bytesRead_eq_self (hx : x.sequence? = none) (hentries : x.entries? = none) :
    x.bytesRead = x := by
  cases x <;> simp [sequence?, items?, bytes?, entries?] at hx hentries <;> rfl

theorem listItems?_bytesRead {xs : List Value} (hx : x.listItems? = some xs) :
    x.bytesRead.listItems? = some (xs.map bytesRead) := by
  cases x <;> simp only [listItems?, reduceCtorEq, Option.some.injEq] at hx <;> subst hx <;>
    simp only [bytesRead, bytesReadAll_eq_map, listItems?]

theorem tupleItems?_bytesRead {xs : List Value} (hx : x.tupleItems? = some xs) :
    x.bytesRead.tupleItems? = some (xs.map bytesRead) := by
  cases x <;> simp only [tupleItems?, reduceCtorEq, Option.some.injEq] at hx <;> subst hx <;>
    simp only [bytesRead, bytesReadAll_eq_map, tupleItems?]

theorem items?_of_tupleItems? {xs : List Value} (hx : x.tupleItems? = some xs) :
    x.items? = some xs := by
  cases x <;> simp_all [tupleItems?, items?]

theorem entries?_bytesRead {es : List (Value × Value)} (hx : x.entries? = some es) :
    x.bytesRead.entries? = some (es.map fun e => (e.1.bytesRead, e.2.bytesRead)) := by
  cases x <;> simp only [entries?, reduceCtorEq, Option.some.injEq] at hx <;> subst hx <;>
    simp only [bytesRead, bytesReadEntries_eq_map, entries?]

/-! ## Comparing decoded values -/

theorem sameItems_map {f g : Value → Value} {xs : List Value}
    (h : ∀ x ∈ xs, (f x).same (g x) = true) : sameItems (xs.map f) (xs.map g) = true := by
  induction xs with
  | nil => rfl
  | cons x xs ih =>
      simp only [List.map_cons, sameItems, Bool.and_eq_true]
      exact ⟨h x (by simp), ih fun y hy => h y (by simp [hy])⟩

theorem sameEntries_of_find? {es fs : List (Value × Value)}
    (h : ∀ e ∈ es, ∃ f, fs.find? (fun f => e.1.same f.1) = some f ∧ e.2.same f.2 = true) :
    sameEntries es fs = true := by
  induction es with
  | nil => rfl
  | cons e es ih =>
      obtain ⟨f, hfind, hsame⟩ := h e (by simp)
      simp only [sameEntries, hfind, hsame, Bool.true_and]
      exact ih fun e' he' => h e' (by simp [he'])

/-- Each key is found where it stands, since it is the same as itself and as no earlier one. -/
theorem find?_same_of_pairwise {es : List (Value × Value)}
    (hdiffer : es.Pairwise fun e f => f.1.same e.1 = false)
    (hself : ∀ e ∈ es, e.1.same e.1 = true) {e : Value × Value} (he : e ∈ es)
    (g : Value → Value) :
    (es.map fun e => (e.1, g e.2)).find? (fun f => e.1.same f.1) = some (e.1, g e.2) := by
  obtain ⟨before, after, rfl⟩ := List.append_of_mem he
  obtain ⟨-, -, hbefore⟩ := List.pairwise_append.mp hdiffer
  have hnone : (before.map fun e => (e.1, g e.2)).find? (fun f => e.1.same f.1) = none := by
    simpa using fun k y hk => hbefore (k, y) hk e (by simp)
  rw [List.map_append, List.find?_append, hnone, Option.none_or, List.map_cons]
  exact List.find?_cons_of_pos (hself e he)

theorem numeric_same_self {n : Numeric} (h : n ≠ .nan) : n.same n = true := by
  cases n with
  | nan => exact absurd rfl h
  | finite d => simp [Numeric.same, Dyadic.same]
  | infinite b => simp [Numeric.same]

theorem ofDouble_ne_nan {d : Binary64} (h : d.isNaN = false) : Numeric.ofDouble d ≠ .nan := by
  unfold Numeric.ofDouble
  split
  · simp
  · simp [h]

theorem same_self_of_numeric {n : Numeric} (hx : x.numeric? = some n) (hn : n ≠ .nan) :
    x.same x = true := by
  have hleaf : x.sameLeaf x = true := by simp [sameLeaf, hx, numeric_same_self hn]
  cases x <;> simp only [numeric?, reduceCtorEq] at hx <;> exact hleaf

theorem same_self_of_text {s : String} (hx : x.text? = some s) : x.same x = true := by
  cases x <;> simp only [text?, reduceCtorEq] at hx <;> simp [same, sameLeaf, numeric?, text?]

theorem same_ofByte (b : UInt8) : (ofByte b).same (ofByte b) = true :=
  same_self_of_numeric rfl (by simp)

end

end Value

end DBusHost
