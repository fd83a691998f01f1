import DBusHost.Proofs.Marshal.Outcome
import DBusHost.Proofs.Unmarshal.Return

/-!
# Re-marshalling a message

The arguments of a received message are appended, with its signature, to a message that has
none.  The body is the same again if and only if everything in it survives: the keys of each
dictionary differ, and a basic value is in at most one variant and then has the type that is
guessed for it.
-/

namespace DBusHost

namespace Item

variable {v : Validator} {items : List Item}

theorem everywhere_survives_iff : Everywhere (Survives v) items ↔
    (∀ element entries, Among (.array element entries) items → KeysDiffer v entries) ∧
    ∀ n type content, Among ((basic type content).wrapped (n + 1)) items →
      n = 0 ∧ type ∈ ['b', 'i', 'd', 's', 'o', 'g', 'h'] := by
  constructor
  · intro h
    refine ⟨fun element entries hy => ?_, fun n type content hy => ?_⟩
    · exact (h _ hy).keys element entries rfl
    · exact (h _ hy).basics n type content rfl
  · rintro ⟨hkeys, hbasics⟩ y hy
    constructor
    · rintro element entries rfl
      exact hkeys element entries hy
    · rintro n type content rfl
      exact hbasics n type content hy

/-- A body that has valid types is read as values that return. -/
theorem HaveTypes.objects (hv : v.Exact) {ts : List SigType} (h : HaveTypes ts items)
    (hts : SigType.Valid ts) :
    ∃ ys, (Item.objects v items).run.run [] = (.ok ys, []) ∧ ReturnsAll v ts ys items := by
  obtain ⟨ys, hread, -, hreturns⟩ := h.returnsAll hv hts.of_mem
  exact ⟨ys, hread, hreturns⟩

end Item

namespace Message

/-- While no native routine fails, all arguments of a message with a well-formed body can be
read.  Appending them with the signature of the message to one without arguments makes the same
body again, up to the payloads of NaNs, if and only if no dictionary in it has two keys that
are read as the same value, and a basic value in variants is in one only and is of a type that
can be told from its value. -/
theorem remarshal_iff {v : Validator} (hv : v.Exact) {m : Message} {ts : List SigType}
    (hts : SigType.Valid ts) (hbody : Item.HaveTypes ts m.sheet.body) {fresh : Message}
    (hfresh : fresh.sheet.body = []) (calls : List PenCall) :
    ∃ g ys, m.signature v = .ok g ∧ (m.objects v).run.run [] = (.ok ys, []) ∧
      ((∃ d, (Marshal.append v (.signature g) (.list ys)).run.run ⟨[], fresh.sheet, calls⟩ =
            (.ok (), d) ∧
          Item.listCanonical d.sheet.body = Item.listCanonical m.sheet.body) ↔
        (∀ element entries, Item.Among (.array element entries) m.sheet.body →
          Item.KeysDiffer v entries) ∧
        ∀ n type content, Item.Among ((Item.basic type content).wrapped (n + 1)) m.sheet.body →
          n = 0 ∧ type ∈ ['b', 'i', 'd', 's', 'o', 'g', 'h']) := by
  have htext : Item.bodyText m.sheet.body = SigType.listText ts := by
    rw [Item.bodyText, hbody.listChars, SigType.listText]
  have hmade := Signature.ofText_listText hv hts
  obtain ⟨ys, hobjects, hreturns⟩ := hbody.objects hv hts
  refine ⟨⟨SigType.listText ts⟩, ys, by rwa [Message.signature, htext], hobjects, ?_⟩
  have hsignature : Signature.ofValue v (.signature ⟨SigType.listText ts⟩) =
      .ok ⟨SigType.listText ts⟩ := rfl
  have hread := readTypes?_eq_some_iff.mpr ⟨rfl, hts.nonempty⟩
  rw [← Item.everywhere_survives_iff]
  constructor
  · rintro ⟨d, happend, heq⟩
    obtain ⟨items, hitems, hencodes⟩ := Marshal.encodesAll_of_append hsignature hread happend
    obtain rfl : d.sheet.body = items := by simpa [hfresh] using hitems
    exact hreturns.survives _ hencodes heq
  · intro hall
    have hencodes := hreturns.encodes hall
    obtain ⟨d, happend, hd⟩ := (Marshal.append_ok_iff_encodesAll hsignature hread
      (x := .list ys) (d := ⟨[], fresh.sheet, calls⟩) rfl).mpr hencodes
    refine ⟨d, happend, congrArg Item.listCanonical ?_⟩
    simpa [hfresh] using hd

/-- An empty array in two variants comes back as it was, also as the value of a dict entry. -/
theorem remarshal_entry : ∃ m : Message,
    m.sheet.body = [.array "\x7bsv\x7d"
      [.dictEntry [.basic 's' (.string "k"), (Item.array "i" []).wrapped 2]]] ∧
    ∃ g ys d, m.signature .ofGrammar = .ok g ∧
      (m.objects .ofGrammar).run.run [] = (.ok ys, []) ∧
      (Marshal.append .ofGrammar (.signature g) (.list ys)).run.run ⟨[], .ofBody [], []⟩ =
        (.ok (), d) ∧
      Item.listCanonical d.sheet.body = Item.listCanonical m.sheet.body := by
  obtain ⟨m, hm⟩ : ∃ m : Message, m.sheet.body = [.array "\x7bsv\x7d"
      [.dictEntry [.basic 's' (.string "k"), (Item.array "i" []).wrapped 2]]] :=
    ⟨{ kind := 1, sheet := .ofBody _ }, rfl⟩
  have hts : SigType.Valid [.dict .string .variant] := by constructor <;> decide
  have hvalue : Item.HasType .variant ((Item.array "i" []).wrapped 2) :=
    .variant (by simp) (by constructor <;> decide) (.array (e := .basic .int32) .nil)
  have hbody : Item.HaveTypes [.dict .string .variant] m.sheet.body := by
    rw [hm]
    exact .cons (.dict (.cons ⟨"k", rfl, by decide⟩ hvalue .nil)) .nil
  have hall : Item.Everywhere (Item.Survives .ofGrammar) m.sheet.body := by
    rw [hm]
    refine Item.everywhere_survives_array.mpr ⟨.cons (by simp) .nil, ?_⟩
    refine Item.everywhere_survives_dictEntry.mpr (Item.everywhere_cons.mpr ⟨?_, ?_⟩)
    · exact Item.everywhere_survives_basic _ _
    · refine (Item.everywhere_survives_wrapped (by simp) 1).mpr ⟨by simp, ?_⟩
      exact Item.everywhere_survives_array.mpr ⟨.nil, Item.everywhere_nil⟩
  have hfresh : ({ kind := 1 } : Message).sheet.body = [] := rfl
  obtain ⟨g, ys, hsignature, hobjects, hiff⟩ := remarshal_iff Validator.exact_ofGrammar hts
    hbody hfresh []
  obtain ⟨d, happend, hd⟩ := hiff.mpr (Item.everywhere_survives_iff.mp hall)
  exact ⟨m, hm, g, ys, d, hsignature, hobjects, happend, hd⟩

end Message

end DBusHost
