import DBusHost.Proofs.Signature.Accepting
import DBusHost.Proofs.Unmarshal.Decoding
import DBusHost.Proofs.Unmarshal.Homogeneous
import DBusHost.Proofs.Value.Essence

/-!
# What is stored of integers and texts

A value of a basic type goes into a native cell and is read from the cell again.  An integer has
been checked against the range of its type by then, and a signature has been looked at for nuls, so
that their cells lose nothing.  Nobody looks at any other text: its cell ends at the first nul, and
so does what is read.
-/

namespace DBusHost

namespace Value

variable {x y : Value}

/-- Integers of any kind are the same if they are equal. -/
theorem same_of_integer? {i : Int} (hy : y.integer? = some i) (hx : x.integer? = some i) :
    y.same x = true :=
  (isPlain_of_essence? (essence?_of_integer? hy)).same_iff.mpr
    ⟨_, essence?_of_integer? hy, essence?_of_integer? hx⟩

/-- Texts of any kind are the same if and only if they are equal. -/
theorem same_iff_of_text? {s t : String} (hy : y.text? = some s) (hx : x.text? = some t) :
    y.same x = true ↔ s = t := by
  rw [(isPlain_of_essence? (essence?_of_text? hy)).same_iff, essence?_of_text? hy,
    essence?_of_text? hx]
  simp [eq_comm]

end Value

namespace BasicType

/-- What a stored value is compared with: bytes that are given for a signature count as the text
that they spell. -/
def given : BasicType → Value → Value
  | signature, .bytes bs | signature, .buffer bs => .text (String.ofList (bs.map Text.charOfByte))
  | _, x => x

/-- The second value is what is read where the first one was stored. -/
structure Stored (b : BasicType) (x y : Value) : Prop where
  /-- They are the same, unless the first one is a text with a nul. -/
  same_iff : y.same (b.given x) = true ↔ ∀ s, x.text? = some s → Text.hasNul s = false
  /-- Of a text, what stands in front of its first nul is read. -/
  text : ∀ s, x.text? = some s → y.text? = some (Text.beforeNul s)

variable {v : Validator} {b : BasicType} {x : Value} {c : Scalar}

theorem given_of_ne_signature (h : b ≠ signature) : b.given x = x := by
  cases b <;> first | rfl | exact absurd rfl h

theorem given_of_text? {s : String} (h : x.text? = some s) : b.given x = x := by
  cases x <;> simp only [Value.text?, reduceCtorEq] at h <;> cases b <;> rfl

/-- The text of a signature is the text that it is made from. -/
theorem text?_given_of_ofValue {g : Signature} (h : Signature.ofValue v x = .ok g) :
    (given signature x).text? = some g.text := by
  cases x with
  | signature g' =>
      obtain rfl := Except.ok.inj h
      rfl
  | text s | path s =>
      obtain ⟨-, -, rfl⟩ := Signature.check_eq_ok_iff.mp h
      rfl
  | bytes bs | buffer bs =>
      simp only [Signature.ofValue, Signature.ofValue.ofBytes] at h
      split at h
      · obtain ⟨-, -, rfl⟩ := Signature.check_eq_ok_iff.mp h
        rfl
      · cases h
  | _ => cases h

theorem text_eq_of_ofValue {g : Signature} {s : String} (h : Signature.ofValue v x = .ok g)
    (hs : x.text? = some s) : g.text = s := by
  have htext := text?_given_of_ofValue h
  rw [given_of_text? hs, hs] at htext
  exact (Option.some.inj htext).symm

/-- The cell of an integer is read as that integer. -/
theorem integer?_valueIn {w : IntWindow} (hw : b.window? = some w) (i : Int) :
    ∃ y, b.valueIn v (.integer i) = .ok y ∧ y.integer? = some i := by
  cases b with
  | boolean | double | string | objectPath | signature => cases hw
  | unixFd => exact ⟨.descriptor i, rfl, rfl⟩
  | _ => exact ⟨.int i, rfl, rfl⟩

theorem exists_stored_integer {w : IntWindow} (hw : b.window? = some w)
    (h : b.cell v x = .ok c) : ∃ y, b.valueIn v c = .ok y ∧ b.Stored x y := by
  obtain ⟨i, hi, rfl⟩ := cell_of_window? hw h
  obtain ⟨y, hread, hy⟩ := integer?_valueIn (v := v) hw i
  have hgiven : b.given x = x := by
    apply given_of_ne_signature
    rintro rfl
    cases hw
  have htext : x.text? = none := by
    cases x <;> simp only [Value.integer?, reduceCtorEq] at hi <;> rfl
  exact ⟨y, hread, by simp [htext, hgiven, Value.same_of_integer? hy hi], by simp [htext]⟩

/-- The cell of a text or a path is read as what stands in front of the first nul. -/
theorem text?_valueIn (hb : b = .string ∨ b = .objectPath) (s : String) :
    ∃ y, b.valueIn v (.string s) = .ok y ∧ y.text? = some (Text.beforeNul s) := by
  obtain rfl | rfl := hb
  · exact ⟨.text (Text.beforeNul s), rfl, rfl⟩
  · exact ⟨.path (Text.beforeNul s), rfl, rfl⟩

theorem exists_stored_text (hb : b = .string ∨ b = .objectPath) (h : b.cell v x = .ok c) :
    ∃ y, b.valueIn v c = .ok y ∧ b.Stored x y := by
  obtain ⟨s, hs, rfl⟩ : ∃ s, x.text? = some s ∧ c = .string (Text.beforeNul s) := by
    cases hs : x.text? with
    | none => obtain rfl | rfl := hb <;> simp [cell, window?, hs] at h
    | some s =>
        refine ⟨s, rfl, ?_⟩
        obtain rfl | rfl := hb <;> simpa [cell, window?, hs, eq_comm] using h
  obtain ⟨y, hread, hy⟩ := text?_valueIn (v := v) hb (Text.beforeNul s)
  rw [Text.beforeNul_beforeNul] at hy
  refine ⟨y, hread, ?_, by simpa [hs] using hy⟩
  rw [given_of_text? hs, Value.same_iff_of_text? hy hs, Text.beforeNul_eq_self_iff, hs]
  simp

/-- The cell of an accepted signature is read as that signature. -/
theorem valueIn_signature {g : Signature} (hg : g.Accepted v) :
    signature.valueIn v (.string (Text.beforeNul g.text)) = .ok (.signature g) := by
  have htext := Text.beforeNul_of_hasNul_eq_false hg.1
  have hback : Signature.ofText v g.text = .ok g :=
    Signature.check_eq_ok_iff.mpr ⟨hg.1, hg.2, rfl⟩
  simp [valueIn, textIn, htext, hback, bind, Except.bind, pure, Except.pure]

theorem exists_stored_signature (hx : x.Accepted v) (h : signature.cell v x = .ok c) :
    ∃ y, signature.valueIn v c = .ok y ∧ signature.Stored x y := by
  obtain ⟨g, hg, hc⟩ := eq_ok_of_bind h
  obtain rfl := Except.ok.inj hc
  have haccepted := Signature.accepted_of_ofValue hx hg
  have hsame : (Value.signature g).same (given signature x) = true :=
    (Value.same_iff_of_text? rfl (text?_given_of_ofValue hg)).mpr rfl
  refine ⟨.signature g, valueIn_signature haccepted, ?_, fun s hx => ?_⟩
  · exact iff_of_true hsame fun s hx => text_eq_of_ofValue hg hx ▸ haccepted.1
  · rw [← text_eq_of_ofValue hg hx, Text.beforeNul_of_hasNul_eq_false haccepted.1]
    rfl

/-- Integers and texts are read from their cells. -/
theorem exists_stored (hboolean : b ≠ .boolean) (hdouble : b ≠ .double) (hx : x.Accepted v)
    (h : b.cell v x = .ok c) : ∃ y, b.valueIn v c = .ok y ∧ b.Stored x y := by
  cases hw : b.window? with
  | some w => exact exists_stored_integer hw h
  | none =>
      cases b with
      | boolean => exact absurd rfl hboolean
      | double => exact absurd rfl hdouble
      | string | objectPath => exact exists_stored_text (by simp) h
      | signature => exact exists_stored_signature hx h
      | _ => cases hw

end BasicType

/-- The reader stands on the first item behind some items. -/
theorem Reader.current?_of_append {r : Reader} {items : List Item} {item : Item}
    (hlevel : r.level = items ++ [item]) (hposition : r.position = items.length) :
    r.current? = some item := by
  simp [current?, hlevel, hposition]

namespace Writing

variable {v : Validator} {b : BasicType} {p : Place} {x : Value}

theorem appendValue_of_cell {c : Scalar} (h : b.cell v x = .ok c) :
    appendValue v p b.char x = appendBasic p b.char c := by
  simp only [appendValue, BasicType.ofChar?_char, h]
  rfl

theorem appendValue_of_fault {f : Fault} (h : b.cell v x = .error f) :
    appendValue v p b.char x = throw f := by
  simp only [appendValue, BasicType.ofChar?_char, h]
  rfl

/-- A value is appended to a body as an integer or a text.

Either this fails, and the body is as it was; if the type takes the value, only the native routine
can fail.  Or the type takes the value, one argument of the type is added, and whoever reads that
argument gets the same value, unless the value is a text with a nul; then what stands in front of
the first nul is stored and read. -/
theorem appendValue_stored (hboolean : b ≠ .boolean)
    (hdouble : b ≠ .double) (hx : x.Accepted v) (d : Desk) :
    match (appendValue v .body b.char x).run.run d with
    | (.error f, d') => d'.sheet = d.sheet ∧ d'.calls = d.calls ∧
        (b.Admits v x → f = .noMemory .appendBasic)
    | (.ok (), d') => b.Admits v x ∧ ∃ c y,
        d'.sheet = ⟨d.sheet.body ++ [.basic b.char c], d.sheet.drafts⟩ ∧
        (∀ r : Reader, r.level = d'.sheet.body → r.position = d.sheet.body.length →
          r.code = typeCode b.char ∧ r.basic v = .ok y) ∧
        (y.same (b.given x) = true ↔ ∀ s, x.text? = some s → Text.hasNul s = false) ∧
        ∀ s, x.text? = some s → y.text? = some (Text.beforeNul s) := by
  cases hc : b.cell v x with
  | error f =>
      rw [appendValue_of_fault hc]
      refine ⟨rfl, rfl, fun hadmits => ?_⟩
      obtain ⟨c, hcell⟩ := BasicType.exists_cell_iff.mpr hadmits
      cases hc.symm.trans hcell
  | ok c =>
      obtain ⟨y, hread, hstored⟩ := BasicType.exists_stored hboolean hdouble hx hc
      rw [appendValue_of_cell hc]
      obtain ⟨fs, hrun | hrun⟩ := run_appendBasic .body b.char c d <;> rw [hrun]
      · exact ⟨rfl, rfl, fun _ => rfl⟩
      · refine ⟨BasicType.exists_cell_iff.mp ⟨c, hc⟩, c, y, rfl, ?_, hstored.same_iff, hstored.text⟩
        intro r hlevel hposition
        have hcurrent := Reader.current?_of_append hlevel hposition
        constructor
        · simp [Reader.code, hcurrent, Item.code]
        · simp [Reader.basic, hcurrent, basicValue, BasicType.ofChar?_char, hread]

/-- A text with a nul is stored without what follows, and is not read back. -/
theorem appendValue_stored_nul : ∃ d y,
    (appendValue .ofGrammar .body 's' (.text "a\x00b")).run.run ⟨[], .ofBody [], []⟩ = (.ok (), d) ∧
      Reader.basic .ofGrammar ⟨d.sheet.body, 0, false, false⟩ = .ok y ∧
      y.text? = some "a" ∧ y.same (.text "a\x00b") = false := by
  have hstored := appendValue_stored (v := .ofGrammar) (b := .string) (x := .text "a\x00b")
    (by decide) (by decide) (by decide) ⟨[], .ofBody [], []⟩
  rcases hrun : (appendValue .ofGrammar .body 's' (.text "a\x00b")).run.run ⟨[], .ofBody [], []⟩
    with ⟨f | _, d⟩
  · cases (Prod.mk.inj hrun).1
  · rw [show BasicType.string.char = 's' from rfl, hrun] at hstored
    obtain ⟨-, c, y, hsheet, hread, hsame, htext⟩ := hstored
    obtain ⟨-, hread⟩ := hread ⟨d.sheet.body, 0, false, false⟩ rfl rfl
    refine ⟨d, y, rfl, hread, htext _ rfl, ?_⟩
    rw [Bool.eq_false_iff]
    exact fun h => absurd (hsame.mp h _ rfl) (by decide)

end Writing

end DBusHost
