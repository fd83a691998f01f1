import DBusHost.Message.Unmarshal
import DBusHost.Proofs.Marshal.Cells
import DBusHost.Proofs.Marshal.Encoding
import DBusHost.Proofs.Native.Attempts
import DBusHost.Proofs.Unmarshal.NormalForm

/-!
# Reading what was written

While no native routine fails, an item that is a value written as a valid type is read as
the normal form of the value.  The signature of a container is cut out of the text of its
item, and is valid because the parts of valid types are valid.
-/

namespace DBusHost

namespace Attempt

variable {α : Type}

theorem gives_lift {e : Except Fault α} {x : α} (h : e = .ok x) :
    Gives (Unmarshal.lift e) x := by
  rw [h]
  rfl

theorem Gives.insideIteration {a : Attempt α} {x : α} (h : Gives a x) :
    Gives (Unmarshal.insideIteration a) x := by
  rw [Gives, Unmarshal.insideIteration, ExceptT.run_tryCatch, StateT.run_bind, h]
  rfl

end Attempt

/-! ## Basic values -/

namespace IntWindow

/-- A cell keeps an integer of its window as it is. -/
theorem store_of_contains {w : IntWindow} {i : Int} (hw : 0 < w.bits)
    (h : w.contains i = true) : w.store i = i := by
  obtain ⟨signed, bits⟩ := w
  obtain ⟨n, rfl⟩ : ∃ n, bits = n + 1 := ⟨bits - 1, by simp at hw; omega⟩
  have hpatterns := patterns_succ n
  have hpos := patterns_pos n
  simp only [contains, least, greatest, Bool.and_eq_true, decide_eq_true_eq,
    Nat.add_sub_cancel] at h
  cases signed with
  | false =>
      simp only [Bool.false_eq_true, if_false] at h
      simp only [store, Bool.false_eq_true, if_false]
      exact Int.emod_eq_of_lt h.1 (by omega)
  | true =>
      simp only [if_true] at h
      simp only [store, if_true]
      exact Int.bmod_eq_of_le_mul_two (by omega) (by omega)

end IntWindow

/-- A signature that a clean value makes has been accepted. -/
theorem Value.Clean.signature {v : Validator} {x : Value} {g : Signature} (hx : x.Clean v)
    (h : Signature.ofValue v x = .ok g) :
    Text.hasNul g.text = false ∧ v.sequence g.text = .valid := by
  cases x with
  | signature g' =>
      obtain rfl := Except.ok.inj h
      exact ⟨hx.nulFree _ _ .self rfl, hx.accepted g' .self⟩
  | text s | path s =>
      obtain ⟨hnul, hvalid, rfl⟩ := Signature.check_eq_ok_iff.mp h
      exact ⟨hnul, hvalid⟩
  | bytes bs | buffer bs =>
      simp only [Signature.ofValue, Signature.ofValue.ofBytes] at h
      split at h
      · obtain ⟨hnul, hvalid, rfl⟩ := Signature.check_eq_ok_iff.mp h
        exact ⟨hnul, hvalid⟩
      · simp at h
  | _ => simp [Signature.ofValue] at h

namespace BasicType

variable {v : Validator} {b : BasicType} {x : Value} {c : Scalar}

theorem storage_of_window? {w : IntWindow} (h : b.window? = some w) :
    b.storage = .integer w := by
  cases b <;> simp [window?] at h <;> simp [storage, h]

/-- The cell of an integer type holds the integer itself. -/
theorem cell_of_window? {w : IntWindow} (hw : b.window? = some w) (h : b.cell v x = .ok c) :
    ∃ i, x.integer? = some i ∧ c = .integer i := by
  simp only [cell, hw, bind, Except.bind] at h
  cases hi : Value.checkInteger w x with
  | error f => simp [hi] at h
  | ok i =>
      obtain ⟨hinteger, hcontains⟩ :=
        (Value.checkInteger_eq_ok_iff (bits_of_window? hw)).mp hi
      have hstore : cell.stored b i = i := by
        simp only [cell.stored, storage_of_window? hw]
        exact IntWindow.store_of_contains (bits_of_window? hw).1 hcontains
      simp only [hi, hstore] at h
      exact ⟨i, hinteger, (Except.ok.inj h).symm⟩

/-- The cell of a type of texts holds the text, if that has no nul. -/
theorem cell_of_text {s : String} (hs : x.text? = some s) (hnul : Text.hasNul s = false)
    (hb : b = .string ∨ b = .objectPath) : b.cell v x = .ok (.string s) := by
  rcases hb with rfl | rfl <;>
    simp [cell, window?, hs, Text.beforeNul_of_hasNul_eq_false hnul]

/-- What the cell of a value holds is read as the normal form of the value. -/
theorem valueIn_cell (hx : x.Clean v) (h : b.cell v x = .ok c) :
    ∃ y, b.Normal v x y ∧ b.valueIn v c = .ok y := by
  cases hw : b.window? with
  | some w =>
      obtain ⟨i, hi, rfl⟩ := cell_of_window? hw h
      cases b with
      | unixFd => exact ⟨_, ⟨i, hi, rfl⟩, rfl⟩
      | boolean | double | string | objectPath | signature => simp [window?] at hw
      | _ => exact ⟨_, ⟨i, hi, rfl⟩, rfl⟩
  | none =>
      cases b with
      | boolean =>
          obtain rfl : _ = c := by simpa [cell, window?] using h
          refine ⟨_, rfl, ?_⟩
          cases x.truth <;> rfl
      | double =>
          cases hd : x.toDouble with
          | error f => simp [cell, window?, hd, Functor.map, Except.map] at h
          | ok d =>
              obtain rfl : _ = c := by
                simpa [cell, window?, hd, Functor.map, Except.map] using h
              exact ⟨_, ⟨d, hd, rfl⟩, rfl⟩
      | string | objectPath =>
          cases hs : x.text? with
          | none => simp [cell, window?, hs] at h
          | some s =>
              have hnul := hx.nulFree x s .self hs
              rw [cell_of_text hs hnul (by simp)] at h
              obtain rfl := Except.ok.inj h
              refine ⟨_, ⟨s, hs, rfl⟩, ?_⟩
              simp [valueIn, textIn, Text.beforeNul_of_hasNul_eq_false hnul, Functor.map,
                Except.map]
      | signature =>
          cases hg : Signature.ofValue v x with
          | error f => simp [cell, window?, hg, bind, Except.bind] at h
          | ok g =>
              obtain ⟨hnul, hvalid⟩ := hx.signature hg
              have htext := Text.beforeNul_of_hasNul_eq_false hnul
              obtain rfl : _ = c := by
                simpa [cell, window?, hg, bind, Except.bind, htext, pure, Except.pure] using h
              have hback : Signature.ofText v g.text = .ok g :=
                Signature.check_eq_ok_iff.mpr ⟨hnul, hvalid, rfl⟩
              refine ⟨_, ⟨g, hg, rfl⟩, ?_⟩
              simp [valueIn, textIn, htext, hback, bind, Except.bind, pure, Except.pure]
      | _ => simp [window?] at hw

end BasicType

/-! ## Dictionaries -/

/-- The normal forms of basic types can be keys. -/
theorem BasicType.Normal.isKeyable {v : Validator} {b : BasicType} {x y : Value}
    (h : b.Normal v x y) : y.isKeyable = true := by
  cases b with
  | boolean =>
      obtain rfl := h
      rfl
  | _ =>
      obtain ⟨a, -, rfl⟩ := h
      rfl

theorem NormalEntries.isKeyable {v : Validator} : {k : BasicType} → {w : SigType} →
    {es fs : List (Value × Value)} → NormalEntries v k w es fs →
    ∀ f ∈ fs, f.1.isKeyable = true
  | _, _, _, _, .nil => by simp
  | _, _, _, _, .cons hkey _ hs => by
      simpa using ⟨hkey.isKeyable, fun a b hf => hs.isKeyable (a, b) hf⟩

namespace Entries

theorem insertPairs_tuples {fs : List (Value × Value)} (h : ∀ f ∈ fs, f.1.isKeyable = true)
    (es : List (Value × Value)) :
    insertPairs es (fs.map fun f => .tuple [f.1, f.2]) =
      (none, fs.foldl (fun es f => insert es f.1 f.2) es) := by
  induction fs generalizing es with
  | nil => rfl
  | cons f fs ih =>
      have hkey := h f (by simp)
      simp only [List.map_cons, insertPairs, Value.elements?, Value.items?, hkey, if_true,
        List.foldl_cons]
      exact ih (fun f' hf' => h f' (by simp [hf'])) _

/-- Pairs whose keys cannot change make a map. -/
theorem ofSource_tuples {fs : List (Value × Value)} (h : ∀ f ∈ fs, f.1.isKeyable = true) :
    ofSource (.list (fs.map fun f => .tuple [f.1, f.2])) = .ok (ofPairs fs) := by
  simp [ofSource, insertFrom, Value.entries?, Value.elements?, Value.items?,
    insertPairs_tuples h, ofPairs]

end Entries

/-- A dictionary is made from its source, the text of its signature, and its level. -/
theorem makeContainer_dictionary {v : Validator} {source : Value} {s : String}
    {g : Signature} {es : List (Value × Value)} (hsource : Entries.ofSource source = .ok es)
    (hs : Signature.ofText v s = .ok g) (n : Nat) :
    makeContainer v .dictionary
        ⟨[source], [(signatureParameter, .text s), (levelParameter, .int n)]⟩ =
      .ok (.dictionary es ⟨some g, .count n⟩) := by
  have hlevel : Arguments.level
      ⟨[source], [(signatureParameter, .text s), (levelParameter, .int n)]⟩ =
        .ok (.count n) := by
    change Level.ofValue (.int n) = _
    simp [Level.ofValue]
  have hfilling : Arguments.filling v .dictionary
      ⟨[source], [(signatureParameter, .text s), (levelParameter, .int n)]⟩ =
        .ok (source, some g) := by
    change (normalSignature v (.text s) >>= fun signature => .ok (source, signature)) = _
    simp [normalSignature, Signature.ofValue, hs, Functor.map, Except.map, bind, Except.bind]
  have hcontents : makeContents v .dictionary ContainerClass.dictionary.name
      ⟨[source], [(signatureParameter, .text s), (levelParameter, .int n)]⟩ =
        .ok (.dictionary es, ⟨some g, .count n⟩) := by
    unfold makeContents
    rw [hlevel, hfilling]
    change (Entries.ofSource source >>= _) = _
    rw [hsource]
    rfl
  rw [makeContainer, hcontents]
  rfl

/-! ## Containers -/

namespace Unmarshal

open Attempt

/-- Cutting the brackets off a text gives what is between them. -/
theorem inner_ofList (front middle back : List Char) :
    inner front.length back.length (String.ofList (front ++ middle ++ back)) =
      String.ofList middle := by
  simp [inner]

theorem codeOf_chars_ne (e : SigType) :
    Cursor.codeOf e.chars ≠ ContainerKind.dictEntry.code := by
  cases e with
  | basic b => cases b <;> decide
  | _ => simp [SigType.chars, Cursor.codeOf, isClosing, typeCode, ContainerKind.code]

variable {v : Validator}

theorem level_ofValue (n : Nat) : Level.ofValue (.int n) = .ok (.count n) := by
  simp [Level.ofValue]

theorem gives_read_basic {b : BasicType} {c : Scalar} {y : Value} (n : Nat)
    (h : b.valueIn v c = .ok y) : Gives (read v (.int n) (.basic b.char c)) y := by
  simp only [read, BasicType.ofChar?_char]
  exact gives_lift h

theorem gives_read_array {e : SigType} {items : List Item} {ys : List Value} (n : Nat)
    (hs : Signature.ofText v e.text = .ok ⟨e.text⟩) (h : Gives (readEach v items) ys) :
    Gives (read v (.int n) (.array e.text items)) (.array ys ⟨some ⟨e.text⟩, .count n⟩) := by
  have hinner : inner 1 0 (Item.array e.text items).text = e.text := by
    have hcut := inner_ofList ['a'] e.chars []
    simpa [Item.text, Item.chars, SigType.text] using hcut
  have hcode : Cursor.codeOf e.text.toList ≠ ContainerKind.dictEntry.code := by
    rw [SigType.text, String.toList_ofList]
    exact codeOf_chars_ne e
  rw [read]
  refine (gives_call _).bind ?_
  simp only [if_neg hcode, hinner]
  exact (gives_lift (level_ofValue n)).bind ((gives_lift hs).bind (h.bind (gives_pure _)))

theorem gives_read_dict {k : BasicType} {w : SigType} {items : List Item}
    {fs : List (Value × Value)} (n : Nat)
    (hs : Signature.ofText v (SigType.listText [.basic k, w]) =
      .ok ⟨SigType.listText [.basic k, w]⟩) (hkeys : ∀ f ∈ fs, f.1.isKeyable = true)
    (h : Gives (readEntries v items) (fs.map fun f => .tuple [f.1, f.2])) :
    Gives (read v (.int n) (.array (Marshal.entryText k w) items))
      (.dictionary (Entries.ofPairs fs)
        ⟨some ⟨SigType.listText [.basic k, w]⟩, .count n⟩) := by
  have hinner : inner 2 1 (Item.array (Marshal.entryText k w) items).text =
      SigType.listText [.basic k, w] := by
    have hcut := inner_ofList ['a', '\x7b'] (SigType.listChars [.basic k, w]) ['\x7d']
    simpa [Item.text, Item.chars, SigType.listText, SigType.listChars, SigType.chars,
      Marshal.entryText] using hcut
  have hcode : Cursor.codeOf (Marshal.entryText k w).toList = ContainerKind.dictEntry.code := by
    rw [Marshal.entryText, String.toList_ofList]
    rfl
  rw [read]
  refine (gives_call _).bind ?_
  simp only [if_pos hcode, hinner]
  exact h.bind (gives_lift
    (makeContainer_dictionary (Entries.ofSource_tuples hkeys) hs n))

theorem gives_read_struct {ts : List SigType} {items : List Item} {ys : List Value} (n : Nat)
    (hchars : Item.listChars items = SigType.listChars ts)
    (hs : Signature.ofText v (SigType.listText ts) = .ok ⟨SigType.listText ts⟩)
    (h : Gives (readEach v items) ys) :
    Gives (read v (.int n) (.struct items))
      (.struct ys ⟨some ⟨SigType.listText ts⟩, .count n⟩) := by
  have hinner : inner 1 1 (Item.struct items).text = SigType.listText ts := by
    have hcut := inner_ofList ['('] (SigType.listChars ts) [')']
    simpa [Item.text, Item.chars, SigType.listText, hchars] using hcut
  rw [read]
  refine h.bind ((gives_call _).bind ?_)
  rw [hinner]
  exact (gives_lift (level_ofValue n)).bind ((gives_lift hs).bind (gives_pure _))

/-- Every variant around an item counts. -/
theorem gives_read_wrapped {item : Item} {y : Value} (m n : Nat)
    (h : Gives (read v (.int (n + m : Nat)) item) y) :
    Gives (read v (.int n) (item.wrapped m)) y := by
  induction m generalizing n with
  | zero => exact h
  | succ m ih =>
      rw [Item.wrapped, read]
      refine (gives_lift (x := Value.int (n + 1 : Nat)) rfl).bind (ih (n + 1) ?_)
      rwa [Nat.add_right_comm, Nat.add_assoc]

/-- A dict entry is read as a tuple of its key and its value. -/
theorem gives_readEntries_cons {key item : Item} {items : List Item} {x y : Value}
    {ps : List Value} (hkey : Gives (read v (.int 0) key) x)
    (hitem : Gives (read v (.int 0) item) y) (h : Gives (readEntries v items) ps) :
    Gives (readEntries v (.dictEntry [key, item] :: items)) (.tuple [x, y] :: ps) := by
  have hpair : Gives (readEach v [key, item]) [x, y] := by
    rw [readEach, readEach, readEach]
    refine hkey.insideIteration.bind (Gives.bind (x := [y]) ?_ (gives_pure _))
    exact hitem.insideIteration.bind ((gives_pure []).bind (gives_pure _))
  rw [readEntries]
  exact hpair.bind (h.bind (gives_pure _))

end Unmarshal

open Attempt Unmarshal SigType

variable {v : Validator}

mutual

/-- While no native routine fails, a clean value written as a valid type is read as its
normal form. -/
theorem Encodes.gives_read (hv : v.Exact) : {t : SigType} → {x : Value} → {item : Item} →
    Encodes v t x item → Valid [t] → x.Clean v → ∀ n : Nat,
    ∃ y, Normal v n t x y ∧ Gives (Unmarshal.read v (.int n) item) y
  | _, _, _, .basic h, _, hx, n => by
      obtain ⟨y, hnormal, hread⟩ := BasicType.valueIn_cell hx h
      exact ⟨y, .basic hnormal, gives_read_basic n hread⟩
  | _, _, _, .array hseq h, ht, hx, n => by
      obtain ⟨ys, hnormal, hread⟩ := h.gives_readEach hv
        (fun t ht' => List.eq_of_mem_replicate ht' ▸ ht.element) (hx.item hseq)
      have hs := Signature.ofText_listText hv ht.element
      rw [listText_singleton] at hs
      exact ⟨_, .array hseq hnormal, gives_read_array n hs hread⟩
  | _, _, _, .dict hentries h, ht, hx, n => by
      obtain ⟨fs, hnormal, hread⟩ := h.gives_readEntries hv ht.entry
        fun e he => ⟨hx.key hentries e he, hx.entry hentries e he⟩
      have hs := Signature.ofText_listText hv ht.entry
      exact ⟨_, .dict hentries hnormal, gives_read_dict n hs hnormal.isKeyable hread⟩
  | _, _, _, .struct hitems h, ht, hx, n => by
      obtain ⟨ys, hnormal, hread⟩ := h.gives_readEach hv ht.fields.of_mem
        (hx.item (Value.sequence?_eq_some_of_items? hitems))
      have hs := Signature.ofText_listText hv ht.fields
      exact ⟨_, .struct hitems hnormal, gives_read_struct n h.listChars hs hread⟩
  | _, x, _, .variant hguess hs hread h, _, hx, n => by
      have hlevel : x.level - 1 + 1 = max x.level 1 := by omega
      obtain ⟨y, hnormal, hy⟩ :=
        h.gives_read hv (Signature.valid_of_readTypes? hv hs hread) hx (n + max x.level 1)
      rw [hlevel]
      exact ⟨y, .variant hguess hread hnormal, gives_read_wrapped _ n hy⟩

theorem EncodesAll.gives_readEach (hv : v.Exact) : {ts : List SigType} →
    {xs : List Value} → {items : List Item} → EncodesAll v ts xs items →
    (∀ t ∈ ts, Valid [t]) → (∀ x ∈ xs, x.Clean v) →
    ∃ ys, NormalAll v ts xs ys ∧ Gives (Unmarshal.readEach v items) ys
  | _, _, _, .nil, _, _ => ⟨[], .nil, gives_pure []⟩
  | _, _, _, .cons h hs, hts, hxs => by
      obtain ⟨y, hnormal, hread⟩ := h.gives_read hv (hts _ (by simp)) (hxs _ (by simp)) 0
      obtain ⟨ys, hnormals, hreads⟩ := hs.gives_readEach hv
        (fun t ht => hts t (by simp [ht])) fun x hx => hxs x (by simp [hx])
      refine ⟨y :: ys, .cons hnormal hnormals, ?_⟩
      rw [Unmarshal.readEach]
      exact hread.insideIteration.bind (hreads.bind (gives_pure _))

theorem EncodesEntries.gives_readEntries (hv : v.Exact) : {k : BasicType} → {w : SigType} →
    {es : List (Value × Value)} → {items : List Item} → EncodesEntries v k w es items →
    Valid [.basic k, w] → (∀ e ∈ es, e.1.Clean v ∧ e.2.Clean v) →
    ∃ fs, NormalEntries v k w es fs ∧
      Gives (Unmarshal.readEntries v items) (fs.map fun f => .tuple [f.1, f.2])
  | _, _, _, _, .nil, _, _ => ⟨[], .nil, gives_pure []⟩
  | k, w, (x, x') :: es, _, .cons (.cons (.basic hkey) (.cons h .nil)) hs, hkw, hes => by
      obtain ⟨hx, hx'⟩ := hes (x, x') (by simp)
      obtain ⟨y, hnormal, hread⟩ := BasicType.valueIn_cell hx hkey
      obtain ⟨y', hnormal', hread'⟩ := h.gives_read hv hkw.tail hx' 0
      obtain ⟨fs, hnormals, hreads⟩ :=
        hs.gives_readEntries hv hkw fun e he => hes e (by simp [he])
      exact ⟨(y, y') :: fs, .cons hnormal hnormal' hnormals,
        gives_readEntries_cons (gives_read_basic 0 hread) hread' hreads⟩

end

end DBusHost
