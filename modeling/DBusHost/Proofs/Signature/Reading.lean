import DBusHost.Signature.Basic
import Mathlib.Data.List.Basic

/-!
# Reading signatures back

`SigType.chars` writes the text of a type and `readTypes?` reads the types of a text.
The two are inverse to each other on types in which every struct has a field: a text is
read as some types if and only if it is the text of these types.

The reader works on a stack of open brackets.  One direction follows the tree of a type
while the reader consumes its text; the other one keeps, for every stack, the text that
has led to it.
-/

namespace DBusHost

namespace SigType

theorem listChars_append (ts us : List SigType) :
    listChars (ts ++ us) = listChars ts ++ listChars us := by
  induction ts with
  | nil => rfl
  | cons t ts ih => simp [listChars, ih]

theorem listHasFields_iff {ts : List SigType} :
    listHasFields ts = true ↔ ∀ t ∈ ts, t.hasFields = true := by
  induction ts with
  | nil => simp [listHasFields]
  | cons t ts ih => simp [listHasFields, ih]

end SigType

namespace BasicType

/-- No mark or bracket is the character of a basic type. -/
theorem char_not_mark (b : BasicType) :
    b.char ≠ 'a' ∧ b.char ≠ 'v' ∧ b.char ≠ '(' ∧ b.char ≠ '{' ∧ b.char ≠ ')' ∧
      b.char ≠ '}' ∧ b.char ≠ '\x00' := by
  cases b <;> decide

theorem typeCode_char_ne_noType (b : BasicType) : typeCode b.char ≠ noType := by
  cases b <;> decide

end BasicType

namespace OpenTypes

open SigType

/-! ## Reading what was written -/

/-- Several complete types have been read. -/
def addAll (o : OpenTypes) (ts : List SigType) : OpenTypes := ts.foldl add o

theorem addAll_of_arrays_eq_zero (e : Enclosure) (done ts : List SigType) :
    addAll ⟨e, done, 0⟩ ts = ⟨e, ts.reverse ++ done, 0⟩ := by
  induction ts generalizing done with
  | nil => rfl
  | cons t ts ih =>
      have hadd : add ⟨e, done, 0⟩ t = ⟨e, t :: done, 0⟩ := rfl
      rw [addAll, List.foldl_cons, hadd, ← addAll, ih]
      simp

theorem read?_array (o : OpenTypes) (outer : List OpenTypes) :
    read? 'a' (o :: outer) = some ({ o with arrays := o.arrays + 1 } :: outer) := by
  simp [read?]

theorem read?_variant (o : OpenTypes) (outer : List OpenTypes) :
    read? 'v' (o :: outer) = some (o.add .variant :: outer) := by
  simp [read?]

theorem read?_openStruct (o : OpenTypes) (outer : List OpenTypes) :
    read? '(' (o :: outer) = some (⟨.struct, [], 0⟩ :: o :: outer) := by
  simp [read?]

theorem read?_openEntry {o : OpenTypes} (outer : List OpenTypes) (h : o.arrays ≠ 0) :
    read? '{' (o :: outer) = some (⟨.dictEntry, [], 0⟩ :: o :: outer) := by
  simp [read?, h]

theorem read?_closeStruct {ts : List SigType} (hts : ts ≠ []) (o : OpenTypes)
    (outer : List OpenTypes) :
    read? ')' (⟨.struct, ts.reverse, 0⟩ :: o :: outer) =
      some (o.add (.struct ts) :: outer) := by
  obtain ⟨u, us, hus⟩ := List.exists_cons_of_ne_nil (List.reverse_ne_nil_iff.mpr hts)
  have hback : (u :: us).reverse = ts := by rw [← hus, List.reverse_reverse]
  rw [hus]
  simp [read?, ← hback]

theorem read?_closeEntry (k : BasicType) (w : SigType) (o : OpenTypes)
    (outer : List OpenTypes) :
    read? '}' (⟨.dictEntry, [w, .basic k], 0⟩ :: o :: outer) =
      some ({ o with arrays := o.arrays - 1 }.add (.dict k w) :: outer) := by
  simp [read?]

theorem read?_basic (b : BasicType) (o : OpenTypes) (outer : List OpenTypes) :
    read? b.char (o :: outer) = some (o.add (.basic b) :: outer) := by
  obtain ⟨ha, hv, ho, hc, ho', hc', -⟩ := b.char_not_mark
  simp [read?, ha, hv, ho, hc, ho', hc', BasicType.ofChar?_char]

mutual

/-- Reading the characters of a type adds it to the innermost open list. -/
theorem readAll?_chars : (t : SigType) → t.hasFields = true → ∀ (o : OpenTypes)
    (outer : List OpenTypes) (rest : List Char),
    readAll? (t.chars ++ rest) (o :: outer) = readAll? rest (o.add t :: outer)
  | .basic b, _, o, outer, rest => by
      simp [chars, readAll?, read?_basic]
  | .variant, _, o, outer, rest => by
      simp [chars, readAll?, read?_variant]
  | .array e, h, o, outer, rest => by
      simp only [chars, List.cons_append, readAll?, read?_array, Option.bind_some]
      rw [readAll?_chars e (by simpa [hasFields] using h)]
      rfl
  | .dict k w, h, o, outer, rest => by
      have hopen := read?_openEntry (o := { o with arrays := o.arrays + 1 }) outer
        (by simp)
      simp only [chars, List.cons_append, List.append_assoc, List.nil_append, readAll?,
        read?_array, Option.bind_some, hopen, read?_basic]
      rw [readAll?_chars w (by simpa [hasFields] using h)]
      exact congrArg (·.bind (readAll? rest)) (read?_closeEntry k w _ outer)
  | .struct fs, h, o, outer, rest => by
      simp only [hasFields, Bool.and_eq_true, Bool.not_eq_true', List.isEmpty_eq_false_iff] at h
      simp only [chars, List.cons_append, List.append_assoc, List.nil_append, readAll?,
        read?_openStruct, Option.bind_some]
      rw [readAll?_listChars fs h.2, addAll_of_arrays_eq_zero, List.append_nil]
      exact congrArg (·.bind (readAll? rest)) (read?_closeStruct h.1 o outer)

theorem readAll?_listChars : (ts : List SigType) → listHasFields ts = true →
    ∀ (o : OpenTypes) (outer : List OpenTypes) (rest : List Char),
    readAll? (listChars ts ++ rest) (o :: outer) = readAll? rest (o.addAll ts :: outer)
  | [], _, o, outer, rest => rfl
  | t :: ts, h, o, outer, rest => by
      simp only [listHasFields, Bool.and_eq_true] at h
      rw [listChars, List.append_assoc, readAll?_chars t h.1, readAll?_listChars ts h.2]
      rfl

end

end OpenTypes

/-- The text of types is read as these types. -/
theorem readTypes?_listText {ts : List SigType} (h : SigType.listHasFields ts = true) :
    readTypes? (SigType.listText ts) = some ts := by
  have hread := OpenTypes.readAll?_listChars ts h ⟨.signature, [], 0⟩ [] []
  rw [List.append_nil, OpenTypes.addAll_of_arrays_eq_zero, List.append_nil] at hread
  rw [readTypes?, SigType.listText, String.toList_ofList, hread]
  simp [OpenTypes.readAll?, OpenTypes.finish?]

/-- The character that opens a list of types, if there is one. -/
def Enclosure.opening : Enclosure → List Char
  | .signature => []
  | .struct => ['(']
  | .dictEntry => ['{']

namespace OpenTypes

open SigType

/-! ## Writing what was read -/

/-- The text that leads to a stack of open lists. -/
def written : List OpenTypes → List Char
  | [] => []
  | o :: outer =>
      written outer ++ (o.enclosure.opening ++ (listChars o.done.reverse ++
        List.replicate o.arrays 'a'))

/-- The structs on a stack have fields, and dict entries stand in arrays. -/
def Coherent : List OpenTypes → Prop
  | [] => True
  | o :: outer =>
      (∀ t ∈ o.done, t.hasFields = true) ∧
        (o.enclosure = .dictEntry → ∃ p rest, outer = p :: rest ∧ p.arrays ≠ 0) ∧
        Coherent outer

theorem chars_underArrays (n : Nat) (t : SigType) :
    (underArrays n t).chars = List.replicate n 'a' ++ t.chars := by
  induction n generalizing t with
  | zero => rfl
  | succ n ih => simp [underArrays, ih, chars, List.replicate_succ']

theorem hasFields_underArrays (n : Nat) (t : SigType) :
    (underArrays n t).hasFields = t.hasFields := by
  induction n generalizing t with
  | zero => rfl
  | succ n ih => simp [underArrays, ih, hasFields]

theorem written_add (o : OpenTypes) (t : SigType) (outer : List OpenTypes) :
    written (o.add t :: outer) = written (o :: outer) ++ t.chars := by
  simp [written, add, listChars_append, listChars, chars_underArrays]

theorem coherent_add {o : OpenTypes} {t : SigType} {outer : List OpenTypes}
    (ht : t.hasFields = true) (h : Coherent (o :: outer)) : Coherent (o.add t :: outer) := by
  obtain ⟨hdone, hentry, houter⟩ := h
  refine ⟨?_, hentry, houter⟩
  intro u hu
  rcases List.mem_cons.mp hu with rfl | hu
  · rw [hasFields_underArrays, ht]
  · exact hdone u hu

theorem eq_of_read?_closeStruct {o : OpenTypes} {outer stack : List OpenTypes}
    (hread : read? ')' (o :: outer) = some stack) : ∃ ts, o = ⟨.struct, ts, 0⟩ := by
  obtain ⟨enclosure, done, arrays⟩ := o
  simp only [read?, Char.reduceEq, if_false, if_true] at hread
  split at hread
  · simp_all
  · simp at hread

theorem eq_of_read?_closeEntry {o : OpenTypes} {outer stack : List OpenTypes}
    (hread : read? '}' (o :: outer) = some stack) :
    ∃ k w, o = ⟨.dictEntry, [w, .basic k], 0⟩ := by
  obtain ⟨enclosure, done, arrays⟩ := o
  simp only [read?, Char.reduceEq, if_false, if_true] at hread
  split at hread
  · simp_all
  · simp at hread

/-- A struct that is closed becomes a type of the list around it. -/
theorem read?_closeStruct_spec {ts : List SigType} {outer stack : List OpenTypes}
    (h : Coherent (⟨.struct, ts, 0⟩ :: outer))
    (hread : read? ')' (⟨.struct, ts, 0⟩ :: outer) = some stack) :
    Coherent stack ∧ written stack = written (⟨.struct, ts, 0⟩ :: outer) ++ [')'] := by
  obtain ⟨hdone, -, houter⟩ := h
  cases outer with
  | nil => cases ts <;> simp [read?] at hread
  | cons o outer =>
      have hts : ts ≠ [] := by
        rintro rfl
        simp [read?] at hread
      have hclose := read?_closeStruct (List.reverse_ne_nil_iff.mpr hts) o outer
      rw [List.reverse_reverse, hread, Option.some.injEq] at hclose
      subst hclose
      have hfields : (SigType.struct ts.reverse).hasFields = true := by
        simp only [hasFields, Bool.and_eq_true, Bool.not_eq_true', List.isEmpty_eq_false_iff]
        exact ⟨List.reverse_ne_nil_iff.mpr hts,
          listHasFields_iff.mpr fun t ht => hdone t (List.mem_reverse.mp ht)⟩
      refine ⟨coherent_add hfields houter, ?_⟩
      rw [written_add]
      simp [written, Enclosure.opening, chars]

/-- A dict entry that is closed becomes the element type of the array around it. -/
theorem read?_closeEntry_spec {k : BasicType} {w : SigType} {outer stack : List OpenTypes}
    (h : Coherent (⟨.dictEntry, [w, .basic k], 0⟩ :: outer))
    (hread : read? '}' (⟨.dictEntry, [w, .basic k], 0⟩ :: outer) = some stack) :
    Coherent stack ∧
      written stack = written (⟨.dictEntry, [w, .basic k], 0⟩ :: outer) ++ ['}'] := by
  obtain ⟨hdone, hentry, houter⟩ := h
  obtain ⟨o, outer, rfl, harrays⟩ := hentry rfl
  rw [read?_closeEntry, Option.some.injEq] at hread
  subst hread
  have hfields : (SigType.dict k w).hasFields = true := hdone w (by simp)
  have hmarks : List.replicate o.arrays 'a' = List.replicate (o.arrays - 1) 'a' ++ ['a'] := by
    rw [← List.replicate_succ', Nat.sub_add_cancel (Nat.pos_of_ne_zero harrays)]
  refine ⟨coherent_add hfields houter, ?_⟩
  rw [written_add]
  simp [written, Enclosure.opening, chars, listChars, hmarks]

/-- Reading a character puts it behind the text that has led to the stack. -/
theorem read?_spec {c : Char} {stack stack' : List OpenTypes} (h : Coherent stack)
    (hread : read? c stack = some stack') :
    Coherent stack' ∧ written stack' = written stack ++ [c] := by
  cases stack with
  | nil => simp [read?] at hread
  | cons o outer =>
      have hstack := h
      obtain ⟨hdone, hentry, houter⟩ := h
      by_cases ha : c = 'a'
      · subst ha
        rw [read?_array, Option.some.injEq] at hread
        subst hread
        exact ⟨⟨hdone, hentry, houter⟩, by simp [written, List.replicate_succ']⟩
      by_cases hv : c = 'v'
      · subst hv
        rw [read?_variant, Option.some.injEq] at hread
        subst hread
        exact ⟨coherent_add rfl hstack, by rw [written_add]; simp [chars]⟩
      by_cases hs : c = '('
      · subst hs
        rw [read?_openStruct, Option.some.injEq] at hread
        subst hread
        exact ⟨⟨by simp, by simp, hstack⟩, by simp [written, Enclosure.opening, listChars]⟩
      by_cases he : c = '{'
      · subst he
        by_cases harrays : o.arrays = 0
        · simp [read?, harrays] at hread
        · rw [read?_openEntry outer harrays, Option.some.injEq] at hread
          subst hread
          exact ⟨⟨by simp, fun _ => ⟨o, outer, rfl, harrays⟩, hstack⟩,
            by simp [written, Enclosure.opening, listChars]⟩
      by_cases hs' : c = ')'
      · subst hs'
        obtain ⟨ts, rfl⟩ := eq_of_read?_closeStruct hread
        exact read?_closeStruct_spec hstack hread
      by_cases he' : c = '}'
      · subst he'
        obtain ⟨k, w, rfl⟩ := eq_of_read?_closeEntry hread
        exact read?_closeEntry_spec hstack hread
      obtain ⟨b, hb, rfl⟩ : ∃ b, BasicType.ofChar? c = some b ∧
          stack' = o.add (.basic b) :: outer := by
        simpa [read?, ha, hv, hs, he, hs', he', @eq_comm _ _ stack'] using hread
      refine ⟨coherent_add rfl hstack, ?_⟩
      rw [written_add]
      simp [chars, BasicType.char_of_ofChar? hb]

theorem readAll?_spec {cs : List Char} {stack stack' : List OpenTypes} (h : Coherent stack)
    (hread : readAll? cs stack = some stack') :
    Coherent stack' ∧ written stack' = written stack ++ cs := by
  induction cs generalizing stack with
  | nil =>
      rw [readAll?, Option.some.injEq] at hread
      subst hread
      exact ⟨h, by simp⟩
  | cons c cs ih =>
      rw [readAll?, Option.bind_eq_some_iff] at hread
      obtain ⟨middle, hmiddle, hrest⟩ := hread
      obtain ⟨hcoherent, hwritten⟩ := read?_spec h hmiddle
      obtain ⟨hcoherent', hwritten'⟩ := ih hcoherent hrest
      exact ⟨hcoherent', by rw [hwritten', hwritten]; simp⟩

theorem eq_of_finish? {stack : List OpenTypes} {ts : List SigType}
    (h : finish? stack = some ts) : stack = [⟨.signature, ts.reverse, 0⟩] := by
  unfold finish? at h
  split at h
  · simp only [Option.some.injEq] at h
    subst h
    rw [List.reverse_reverse]
  · simp at h

end OpenTypes

/-- A text is read as some types if and only if it is the text of these types and every
struct in them has a field. -/
theorem readTypes?_eq_some_iff {s : String} {ts : List SigType} :
    readTypes? s = some ts ↔
      s = SigType.listText ts ∧ SigType.listHasFields ts = true := by
  constructor
  · intro h
    obtain ⟨stack, hread, hfinish⟩ := Option.bind_eq_some_iff.mp h
    have hstart : OpenTypes.Coherent [⟨.signature, [], 0⟩] := ⟨by simp, by simp, trivial⟩
    obtain ⟨hcoherent, hwritten⟩ := OpenTypes.readAll?_spec hstart hread
    rw [OpenTypes.eq_of_finish? hfinish] at hcoherent hwritten
    constructor
    · have hchars : SigType.listChars ts = s.toList := by
        simpa [OpenTypes.written, Enclosure.opening, SigType.listChars] using hwritten
      rw [SigType.listText, hchars, String.ofList_toList]
    · refine SigType.listHasFields_iff.mpr fun t ht => hcoherent.1 t ?_
      exact List.mem_reverse.mpr ht
  · rintro ⟨rfl, h⟩
    exact readTypes?_listText h

end DBusHost
