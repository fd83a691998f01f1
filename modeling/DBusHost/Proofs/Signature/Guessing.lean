import DBusHost.Proofs.Marshal.Offers
import DBusHost.Proofs.Native.Attempts
import DBusHost.Proofs.Signature.Carried
import DBusHost.Proofs.Signature.WellFormed

/-!
# How many types are guessed

The signature that is guessed for a value is put together from signatures that have been
accepted, each on its own, and is accepted as a whole.  What stands in brackets is one type
then.  An array mark is no bracket: it takes the first type that follows, and all others stand
beside the array.

So a guess is one type, unless array marks stand directly in front of the signature that an
array carries and this is not one type.
-/

namespace DBusHost

/-- The text is a list of complete types. -/
def IsTypes (s : String) : Prop := (readTypes? s).isSome

instance : DecidablePred IsTypes := fun s =>
  inferInstanceAs (Decidable ((readTypes? s).isSome = true))

/-- The number of complete types of a text, none if it is no list of types. -/
def typeCount (s : String) : Nat := ((readTypes? s).getD []).length

namespace SigType

variable {ts us : List SigType}

theorem listText_append : listText (ts ++ us) = listText ts ++ listText us := by
  simp [listText, listChars_append]

theorem listHasFields_append (h : listHasFields ts = true) (h' : listHasFields us = true) :
    listHasFields (ts ++ us) = true := by
  rw [listHasFields_iff] at h h' ⊢
  exact List.forall_mem_append.mpr ⟨h, h'⟩

/-! ### The texts of containers -/

theorem array_text (e : SigType) : "a" ++ e.text = (array e).text := by
  simp [text, chars]

theorem struct_text (fs : List SigType) : "(" ++ listText fs ++ ")" = (struct fs).text := by
  simp [text, listText, chars, String.append_assoc]

theorem dict_text (k : BasicType) (w : SigType) :
    "a\x7b" ++ listText [basic k, w] ++ "\x7d" = (dict k w).text := by
  apply String.toList_injective
  simp [listText, listChars, chars, text]

end SigType

section Texts

open SigType

variable {s s' : String}

theorem isTypes_listText {ts : List SigType} (h : listHasFields ts = true) :
    IsTypes (listText ts) := by
  rw [IsTypes, readTypes?_listText h, Option.isSome_some]

theorem IsTypes.exists_types (h : IsTypes s) :
    ∃ ts, s = listText ts ∧ listHasFields ts = true := by
  obtain ⟨ts, hread⟩ := Option.isSome_iff_exists.mp h
  exact ⟨ts, readTypes?_eq_some_iff.mp hread⟩

theorem IsTypes.append (h : IsTypes s) (h' : IsTypes s') : IsTypes (s ++ s') := by
  obtain ⟨ts, rfl, hfields⟩ := h.exists_types
  obtain ⟨us, rfl, hfields'⟩ := h'.exists_types
  rw [← listText_append]
  exact isTypes_listText (listHasFields_append hfields hfields')

theorem typeCount_listText {ts : List SigType} (h : listHasFields ts = true) :
    typeCount (listText ts) = ts.length := by
  rw [typeCount, readTypes?_listText h, Option.getD_some]

theorem typeCount_append (h : IsTypes s) (h' : IsTypes s') :
    typeCount (s ++ s') = typeCount s + typeCount s' := by
  obtain ⟨ts, rfl, hfields⟩ := h.exists_types
  obtain ⟨us, rfl, hfields'⟩ := h'.exists_types
  rw [← listText_append, typeCount_listText (listHasFields_append hfields hfields'),
    typeCount_listText hfields, typeCount_listText hfields', List.length_append]

/-- An array mark in front of types belongs to the first one of them. -/
theorem typeCount_array (hs : IsTypes s) (h : IsTypes ("a" ++ s)) :
    typeCount ("a" ++ s) = typeCount s := by
  obtain ⟨ts, rfl, hfields⟩ := hs.exists_types
  cases ts with
  | nil => exact absurd h (by decide)
  | cons t ts =>
      have htext : "a" ++ listText (t :: ts) = listText (array t :: ts) := by
        simp [listText, listChars, chars]
      have harray : listHasFields (array t :: ts) = true := by
        simpa [listHasFields, hasFields] using hfields
      rw [htext, typeCount_listText harray, typeCount_listText hfields]
      rfl

/-- Types in round brackets are one struct, if they are a list of types. -/
theorem typeCount_struct (hs : IsTypes s) (h : IsTypes ("(" ++ s ++ ")")) :
    typeCount ("(" ++ s ++ ")") = 1 := by
  obtain ⟨ts, rfl, hfields⟩ := hs.exists_types
  cases ts with
  | nil => exact absurd h (by decide)
  | cons t ts =>
      have hstruct : listHasFields [struct (t :: ts)] = true := by
        simpa [listHasFields, hasFields] using hfields
      rw [struct_text, ← listText_singleton, typeCount_listText hstruct]
      rfl

/-- Types in curly brackets behind an array mark are a basic type and another one, if all that is
a list of types. -/
theorem entry_of_isTypes {ts : List SigType} (hfields : listHasFields ts = true)
    (h : IsTypes ("a\x7b" ++ listText ts ++ "\x7d")) : ∃ k w, ts = [basic k, w] := by
  -- Reading up to the closing bracket leaves the types on an open dict entry, which can only be
  -- closed if they are a basic type and another one.
  have hchars : ("a\x7b" ++ listText ts ++ "\x7d").toList =
      'a' :: '{' :: (listChars ts ++ ['}']) := by simp [listText]
  have hread : OpenTypes.readAll? ("a\x7b" ++ listText ts ++ "\x7d").toList
      [⟨.signature, [], 0⟩] =
        OpenTypes.readAll? ['}'] [⟨.dictEntry, ts.reverse, 0⟩, ⟨.signature, [], 1⟩] := by
    rw [hchars, OpenTypes.readAll?, OpenTypes.read?_array, Option.bind_some,
      OpenTypes.readAll?, OpenTypes.read?_openEntry _ (by simp), Option.bind_some,
      OpenTypes.readAll?_listChars ts hfields, OpenTypes.addAll_of_arrays_eq_zero,
      List.append_nil]
  cases hclose : OpenTypes.read? '}' [⟨.dictEntry, ts.reverse, 0⟩, ⟨.signature, [], 1⟩] with
  | none =>
      rw [IsTypes, readTypes?, hread, OpenTypes.readAll?, hclose] at h
      simp at h
  | some stack =>
      obtain ⟨k, w, hentry⟩ := OpenTypes.eq_of_read?_closeEntry hclose
      have hts : ts.reverse = [w, basic k] := by simpa using hentry
      exact ⟨k, w, by simpa using congrArg List.reverse hts⟩

/-- Types in curly brackets behind an array mark are one dict, if they are a list of types. -/
theorem typeCount_dict (hs : IsTypes s) (h : IsTypes ("a\x7b" ++ s ++ "\x7d")) :
    typeCount ("a\x7b" ++ s ++ "\x7d") = 1 := by
  obtain ⟨ts, rfl, hfields⟩ := hs.exists_types
  obtain ⟨k, w, rfl⟩ := entry_of_isTypes hfields h
  have hdict : listHasFields [dict k w] = true := by
    simpa [listHasFields, hasFields] using hfields
  rw [dict_text, ← listText_singleton, typeCount_listText hdict]
  rfl

end Texts

namespace Signature

variable {v : Validator} {g : Signature} {s : String}

/-- What an exact validator accepts is a list of types. -/
theorem Accepted.isTypes (hv : v.Exact) (h : g.Accepted v) : IsTypes g.text := by
  have hcheck : check v g.text g.text = .ok g := check_eq_ok_iff.mpr ⟨h.1, h.2, rfl⟩
  obtain ⟨ts, htext, hvalid⟩ := valid_of_check hv hcheck
  rw [htext]
  exact isTypes_listText hvalid.nonempty

end Signature

namespace Value

mutual

/-- The signature that the array marks of a value's type stand directly in front of, if an array
carries it: the value itself, or its first element, or the first element of that, and so on.
The variants around the value itself are left out of account. -/
def elementSignature? : Value → Option Signature
  | array xs t => match t.signature with
    | some g => some g
    | none => firstElementSignature? xs
  | list xs => firstElementSignature? xs
  | _ => none
termination_by structural x => x

def firstElementSignature? : List Value → Option Signature
  | [] => none
  | x :: _ => if 0 < x.level then none else x.elementSignature?
termination_by structural xs => xs

end

/-- If array marks stand directly in front of a carried signature, it is one complete type. -/
def OneElementType (x : Value) : Prop :=
  x.level = 0 → ∀ g ∈ x.elementSignature?, typeCount g.text = 1

instance : DecidablePred OneElementType := fun x =>
  inferInstanceAs (Decidable (x.level = 0 → ∀ g ∈ x.elementSignature?, typeCount g.text = 1))

section

variable {v : Validator} {s : String} {g : Signature}

theorem isTypes_of_guess (hv : v.Exact) {x : Value} (h : x.guess v = .ok g) :
    IsTypes g.text := (accepted_of_guess h).isTypes hv

/-- The guesses for values are texts of types, and so is the text of all of them. -/
theorem isTypes_of_guessEach (hv : v.Exact) {xs : List Value} (h : guessEach v xs = .ok s) :
    IsTypes s := by
  induction xs generalizing s with
  | nil =>
      obtain rfl : SigType.listText [] = s := Except.ok.inj h
      exact isTypes_listText rfl
  | cons x xs ih =>
      obtain ⟨first, hfirst, h⟩ := eq_ok_of_bind h
      obtain ⟨rest, hrest, h⟩ := eq_ok_of_bind h
      obtain rfl := Except.ok.inj h
      exact (isTypes_of_guess hv hfirst).append (ih hrest)

theorem typeCount_guessFields (hv : v.Exact) {xs : List Value} (h : guessFields v xs = .ok s)
    (hs : IsTypes s) : typeCount s = 1 := by
  cases xs with
  | nil => simp [guessFields] at h
  | cons x xs =>
      obtain ⟨first, hfirst, h⟩ := eq_ok_of_bind h
      obtain ⟨rest, hrest, h⟩ := eq_ok_of_bind h
      have hinner := (isTypes_of_guess hv hfirst).append (isTypes_of_guessEach hv hrest)
      obtain rfl : "(" ++ (first.text ++ rest) ++ ")" = s := by
        rw [← Except.ok.inj h]
        simp [String.append_assoc]
      exact typeCount_struct hinner hs

theorem typeCount_guessEntry (hv : v.Exact) {es : List (Value × Value)}
    (h : guessEntry v es = .ok s) (hs : IsTypes s) : typeCount s = 1 := by
  cases es with
  | nil => simp [guessEntry] at h
  | cons e es =>
      obtain ⟨key, hkey, h⟩ := eq_ok_of_bind h
      obtain ⟨value, hvalue, h⟩ := eq_ok_of_bind h
      have hinner := (isTypes_of_guess hv hkey).append (isTypes_of_guess hv hvalue)
      obtain rfl : "a\x7b" ++ (key.text ++ value.text) ++ "\x7d" = s := by
        rw [← Except.ok.inj h]
        simp [String.append_assoc]
      exact typeCount_dict hinner hs

theorem typeCount_guessLeaf {x : Value} (h : x.guessLeaf = .ok s) : typeCount s = 1 := by
  cases x <;> simp only [guessLeaf, reduceCtorEq, Except.ok.injEq] at h <;> subst h <;> decide

mutual

/-- The guess for a value is as many types as the array marks stand in front of, and one type if
they stand in front of no carried signature. -/
theorem typeCount_guessPlain (hv : v.Exact) : (x : Value) → x.Accepted v → ∀ {s : String},
    x.guessPlain v = .ok s → IsTypes s →
    typeCount s = (x.elementSignature?.map fun g => typeCount g.text).getD 1 := by
  intro x hx s h hs
  cases x with
  | list xs => exact typeCount_guessElement hv xs (hx.item rfl) h hs
  | array xs t =>
      cases hg : t.signature with
      | none =>
          have helement : guessElement v xs = .ok s := by simpa [guessPlain, hg] using h
          simpa [elementSignature?, hg] using
            typeCount_guessElement hv xs (hx.item rfl) helement hs
      | some g =>
          obtain rfl : "a" ++ g.text = s := by simpa [guessPlain, hg] using h
          simpa [elementSignature?, hg] using
            typeCount_array ((hx.carried rfl hg).isTypes hv) hs
  | tuple xs => exact typeCount_guessFields hv h hs
  | struct xs t =>
      cases hg : t.signature with
      | none => exact typeCount_guessFields hv (by simpa [guessPlain, hg] using h) hs
      | some g =>
          obtain rfl : "(" ++ g.text ++ ")" = s := by simpa [guessPlain, hg] using h
          exact typeCount_struct ((hx.carried rfl hg).isTypes hv) hs
  | map es => exact typeCount_guessEntry hv h hs
  | dictionary es t =>
      cases hg : t.signature with
      | none => exact typeCount_guessEntry hv (by simpa [guessPlain, hg] using h) hs
      | some g =>
          obtain rfl : "a\x7b" ++ g.text ++ "\x7d" = s := by simpa [guessPlain, hg] using h
          exact typeCount_dict ((hx.carried rfl hg).isTypes hv) hs
  | _ =>
      simp only [guessPlain] at h
      exact typeCount_guessLeaf h

theorem typeCount_guessElement (hv : v.Exact) : (xs : List Value) →
    (∀ x ∈ xs, x.Accepted v) → ∀ {s : String}, guessElement v xs = .ok s → IsTypes s →
    typeCount s = ((firstElementSignature? xs).map fun g => typeCount g.text).getD 1 := by
  intro xs hxs s h hs
  cases xs with
  | nil => simp [guessElement] at h
  | cons x xs =>
      obtain ⟨first, hfirst, h⟩ := eq_ok_of_bind h
      obtain rfl : "a" ++ first.text = s := Except.ok.inj h
      rw [typeCount_array (isTypes_of_guess hv hfirst) hs]
      obtain ⟨hlevel, hfirst⟩ | ⟨hlevel, s, hplain, hfirst⟩ := guessAt_eq_ok hfirst
      · rw [(Signature.accepted_of_check hfirst).2, firstElementSignature?, if_pos hlevel]
        decide
      · obtain ⟨haccepted, rfl⟩ := Signature.accepted_of_check hfirst
        rw [firstElementSignature?, if_neg (by omega)]
        exact typeCount_guessPlain hv x (hxs x (by simp)) hplain (haccepted.isTypes hv)

end

theorem typeCount_pos_of_guessPlain {x : Value} (h : x.guessPlain v = .ok s) (hs : IsTypes s) :
    0 < typeCount s := by
  obtain ⟨ts, rfl, hfields⟩ := hs.exists_types
  obtain ⟨c, hhead, -⟩ := head?_guessPlain h
  rw [typeCount_listText hfields]
  refine List.length_pos_of_ne_nil ?_
  rintro rfl
  simp [SigType.listText, SigType.listChars] at hhead

/-- How many types a guess is: at least one, and more than one exactly if array marks stand in
front of more than one. -/
theorem typeCount_guess (hv : v.Exact) {x : Value} (hx : x.Accepted v) (h : x.guess v = .ok g) :
    0 < typeCount g.text ∧ (typeCount g.text = 1 ↔ x.OneElementType) := by
  obtain ⟨hlevel, h⟩ | ⟨hlevel, s, hplain, h⟩ := guessAt_eq_ok h
  · rw [(Signature.accepted_of_check h).2]
    exact ⟨by decide, iff_of_true (by decide) fun h => by omega⟩
  · obtain ⟨haccepted, rfl⟩ := Signature.accepted_of_check h
    have hs := haccepted.isTypes hv
    have hcount := typeCount_guessPlain hv x hx hplain hs
    refine ⟨typeCount_pos_of_guessPlain hplain hs, ?_⟩
    rw [hcount, OneElementType]
    cases x.elementSignature? with
    | none => simp
    | some g => simp [hlevel]

/-- The guess for several values is as many types as there are values, or more if array marks
stand in front of more than one. -/
theorem typeCount_guessAll (hv : v.Exact) {xs : List Value} (hxs : ∀ x ∈ xs, x.Accepted v)
    (h : guessAll v xs = .ok s) : xs.length ≤ typeCount s ∧
      (typeCount s = xs.length ↔ ∀ x ∈ xs, x.OneElementType) := by
  induction xs generalizing s with
  | nil =>
      obtain rfl : "" = s := by simpa [guessAll, guessEach] using h
      exact ⟨by decide, iff_of_true (by decide) (by simp)⟩
  | cons x xs ih =>
      obtain ⟨first, hfirst, h⟩ := eq_ok_of_bind h
      obtain ⟨rest, hrest, h⟩ := eq_ok_of_bind h
      obtain rfl := Except.ok.inj h
      obtain ⟨hpos, hone⟩ := typeCount_guess hv (hxs x (by simp)) hfirst
      obtain ⟨hle, hall⟩ := ih (fun y hy => hxs y (by simp [hy])) hrest
      rw [typeCount_append (isTypes_of_guess hv hfirst) (isTypes_of_guessEach hv hrest),
        List.forall_mem_cons, ← hone, ← hall, List.length_cons]
      omega

/-- A guess is a list of complete types, of which there is at least one.  It is exactly one
complete type if and only if array marks stand directly in front of no carried signature, or in
front of one that is exactly one complete type.  So the types that are guessed for several values
go with the values one by one if and only if this holds of each of them. -/
theorem guess_complete_types (hv : v.Exact) :
    (∀ x g, Accepted v x → guess v x = .ok g →
      ∃ t ts, readTypes? g.text = some (t :: ts) ∧ (ts = [] ↔ x.OneElementType)) ∧
    ∀ xs s, (∀ x ∈ xs, Accepted v x) → guessAll v xs = .ok s →
      ∃ ts, readTypes? s = some ts ∧ xs.length ≤ ts.length ∧
        (ts.length = xs.length ↔ ∀ x ∈ xs, x.OneElementType) := by
  constructor
  · intro x g hx h
    obtain ⟨hpos, hone⟩ := typeCount_guess hv hx h
    obtain ⟨us, hread⟩ := Option.isSome_iff_exists.mp (isTypes_of_guess hv h)
    cases us with
    | nil => simp [typeCount, hread] at hpos
    | cons t ts => exact ⟨t, ts, hread, by simpa [typeCount, hread] using hone⟩
  · intro xs s hxs h
    obtain ⟨ts, hread⟩ := Option.isSome_iff_exists.mp (isTypes_of_guessEach hv h)
    have hcount : typeCount s = ts.length := by rw [typeCount, hread, Option.getD_some]
    exact ⟨ts, hread, hcount ▸ typeCount_guessAll hv hxs h⟩

/-- An array that carries two types is guessed to be two types, and an array that carries one of
them is guessed to be one. -/
theorem guess_complete_types_array :
    (∃ g, guess .ofGrammar (.array [.int 1] ⟨some ⟨"ii"⟩, .count 0⟩) = .ok g ∧
      ∃ t u us, readTypes? g.text = some (t :: u :: us)) ∧
    ∃ s, guessAll .ofGrammar [.array [.int 1] ⟨some ⟨"i"⟩, .count 0⟩] = .ok s ∧
      ∃ t, readTypes? s = some [t] := by
  obtain ⟨hguess, hall⟩ := guess_complete_types Validator.exact_ofGrammar
  constructor
  · obtain ⟨t, ts, hread, hiff⟩ := hguess (.array [.int 1] ⟨some ⟨"ii"⟩, .count 0⟩) ⟨"aii"⟩
      (by decide) rfl
    have htwo : ts ≠ [] := mt hiff.mp (by decide)
    obtain ⟨u, us, rfl⟩ := List.exists_cons_of_ne_nil htwo
    exact ⟨⟨"aii"⟩, rfl, t, u, us, hread⟩
  · obtain ⟨ts, hread, -, hiff⟩ := hall [.array [.int 1] ⟨some ⟨"i"⟩, .count 0⟩] "ai"
      (by decide) rfl
    obtain ⟨t, rfl⟩ := List.length_eq_one_iff.mp (hiff.mpr (by decide))
    exact ⟨"ai", rfl, t, hread⟩

end

end Value

end DBusHost
