import DBusHost.Message.Basic
import DBusHost.Proofs.Marshal.Outcome
import DBusHost.Proofs.Unmarshal.Decoding

/-!
# Writing and reading again

Values that have been appended to an empty message are read back in their normal form, and
the signature of the message is the one they were appended with.
-/

namespace DBusHost

namespace Marshal

variable {v : Validator}

theorem clean_of_mem_arguments {x y : Value} (hx : x.Clean v) (hy : y ∈ arguments x) :
    y.Clean v := by
  unfold arguments at hy
  cases hitems : x.items? with
  | none =>
      obtain rfl : y = x := by simpa [hitems] using hy
      exact hx
  | some xs =>
      have hmem : y ∈ xs := by simpa [hitems] using hy
      exact hx.item (Value.sequence?_eq_some_of_items? hitems) y hmem

end Marshal

namespace Message

section

variable {v : Validator} {signature x : Value} {s : String} {ts : List SigType} {m : Message}
  {calls : List PenCall} {d : Desk}

/-- Values that have been appended to a message without arguments are read in a normal form. -/
theorem exists_normalAll_of_append (hv : v.Exact)
    (hsignature : Signature.ofValue v signature = .ok ⟨s⟩) (hread : readTypes? s = some ts)
    (hts : SigType.Valid ts) (hx : x.Clean v) (hbody : m.sheet.body = [])
    (h : (Marshal.append v signature x).run.run ⟨[], m.sheet, calls⟩ = (.ok (), d)) :
    ∃ ys, NormalAll v ts (Marshal.arguments x) ys ∧
      (({ m with sheet := d.sheet }).objects v).run.run [] = (.ok ys, []) := by
  obtain ⟨items, hitems, hencodes⟩ := Marshal.encodesAll_of_append hsignature hread h
  rw [hbody, List.nil_append] at hitems
  obtain ⟨ys, hnormal, hgives⟩ := hencodes.gives_readEach hv hts.of_mem
    fun y hy => Marshal.clean_of_mem_arguments hx hy
  refine ⟨ys, hnormal, ?_⟩
  simp only [Message.objects, Item.objects, hitems]
  exact hgives

/-- After values have been appended to a message without arguments, its signature is the one
that was given. -/
theorem signature_of_append (hv : v.Exact) (hsignature : Signature.ofValue v signature = .ok ⟨s⟩)
    (hread : readTypes? s = some ts) (hts : SigType.Valid ts) (hbody : m.sheet.body = [])
    (h : (Marshal.append v signature x).run.run ⟨[], m.sheet, calls⟩ = (.ok (), d)) :
    ({ m with sheet := d.sheet }).signature v = .ok ⟨s⟩ := by
  obtain ⟨items, hitems, hencodes⟩ := Marshal.encodesAll_of_append hsignature hread h
  rw [hbody, List.nil_append] at hitems
  obtain ⟨rfl, -⟩ := readTypes?_eq_some_iff.mp hread
  have htext : Item.bodyText d.sheet.body = SigType.listText ts := by
    rw [hitems, Item.bodyText, hencodes.listChars, SigType.listText]
  simp only [Message.signature, htext]
  exact Signature.ofText_listText hv hts

end

/-- After values have been appended to a message without arguments, its signature is the one
that was given, and its arguments are the normal forms of the values. -/
theorem objects_append {v : Validator} (hv : v.Exact) {signature x : Value} {s : String}
    {ts : List SigType} (hsignature : Signature.ofValue v signature = .ok ⟨s⟩)
    (hs : isWellFormed s = true) (hread : readTypes? s = some ts) (hx : x.Clean v)
    {m : Message} (hbody : m.sheet.body = []) {calls : List PenCall} {d : Desk}
    (h : (Marshal.append v signature x).run.run ⟨[], m.sheet, calls⟩ = (.ok (), d)) :
    ({ m with sheet := d.sheet }).signature v = .ok ⟨s⟩ ∧
      ∃ ys, (({ m with sheet := d.sheet }).objects v).run.run [] = (.ok ys, []) ∧
        ∀ zs, NormalAll v ts (Marshal.arguments x) zs ↔ zs = ys := by
  obtain ⟨rfl, hfields⟩ := readTypes?_eq_some_iff.mp hread
  have hts := (SigType.isWellFormed_listText_iff hfields).mp hs
  obtain ⟨ys, hnormal, hobjects⟩ := exists_normalAll_of_append hv hsignature hread hts hx hbody h
  exact ⟨signature_of_append hv hsignature hread hts hbody h, ys, hobjects,
    fun zs => ⟨fun hzs => hzs.unique hnormal, fun hzs => hzs ▸ hnormal⟩⟩

/-- A list in a variant is appended to an empty message and read back. -/
theorem objects_append_entry : ∃ d : Desk,
    (Marshal.append .ofGrammar (.text "a\x7bsv\x7di")
        (.list [.map [(.text "k", .list [.int 7])], .bool true])).run.run
        ⟨[], .ofBody [], []⟩ = (.ok (), d) ∧
      isWellFormed "a\x7bsv\x7di" = true ∧
      Message.signature .ofGrammar { kind := 1, sheet := d.sheet } = .ok ⟨"a\x7bsv\x7di"⟩ ∧
      (Message.objects .ofGrammar { kind := 1, sheet := d.sheet }).run.run [] =
        (.ok [.dictionary [(.text "k", .array [.int 7] ⟨some ⟨"i"⟩, .count 1⟩)]
          ⟨some ⟨"sv"⟩, .count 0⟩, .int 1], []) := by
  have hsignature : Signature.ofValue .ofGrammar (.text "a\x7bsv\x7di") =
      .ok ⟨"a\x7bsv\x7di"⟩ := by decide +kernel
  have hread : readTypes? "a\x7bsv\x7di" = some [.dict .string .variant, .basic .int32] := by
    rfl
  have hs : isWellFormed "a\x7bsv\x7di" = true := by decide +kernel
  have hkey : Value.Clean .ofGrammar (.text "k") := Value.clean_text (by decide)
  have hitems : Value.Clean .ofGrammar (.list [.int 7]) :=
    Value.clean_list (by simpa using Value.clean_of_integer rfl)
  have hmap : Value.Clean .ofGrammar (.map [(.text "k", .list [.int 7])]) :=
    Value.clean_map (by simpa using ⟨hkey, hitems⟩)
  have hclean : Value.Clean .ofGrammar
      (.list [.map [(.text "k", .list [.int 7])], .bool true]) :=
    Value.clean_list (by simpa using ⟨hmap, Value.clean_of_integer rfl⟩)
  obtain ⟨⟨r, d⟩, happend⟩ : ∃ p, (Marshal.append .ofGrammar (.text "a\x7bsv\x7di")
      (.list [.map [(.text "k", .list [.int 7])], .bool true])).run.run
      ⟨[], .ofBody [], []⟩ = p := ⟨_, rfl⟩
  obtain rfl : r = .ok () := by
    have hdone : ((Marshal.append .ofGrammar (.text "a\x7bsv\x7di")
        (.list [.map [(.text "k", .list [.int 7])], .bool true])).run.run
        ⟨[], .ofBody [], []⟩).1 = .ok () := by decide +kernel
    rwa [happend] at hdone
  obtain ⟨hgiven, ys, hobjects, hnormal⟩ := objects_append Validator.exact_ofGrammar
    hsignature hs hread hclean (m := { kind := 1 }) rfl happend
  have hlist : Normal .ofGrammar 0 .variant (.list [.int 7])
      (.array [.int 7] ⟨some ⟨"i"⟩, .count 1⟩) :=
    .variant (s := "ai") (by decide +kernel) rfl
      (.array rfl (.cons (.basic ⟨7, rfl, rfl⟩) .nil))
  have hys := (hnormal _).mp (.cons (.dict rfl (.cons ⟨"k", rfl, rfl⟩ hlist .nil))
    (.cons (.basic ⟨1, rfl, rfl⟩) .nil))
  exact ⟨d, happend, hs, hgiven, hys ▸ hobjects⟩

end Message

end DBusHost
