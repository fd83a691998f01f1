import DBusHost.Proofs.Unmarshal.Guessed
import DBusHost.Proofs.Unmarshal.Storing

/-!
# What a type keeps

A value that is put into a message as a type comes back in its normal form, and this need not be
the same value: anything at all can be put in as a truth value, an integer or the text of a number
as a double, bytes as a signature, a tuple as an array and a list as a struct.  Where a type has
been guessed from a first item, such conversions happen to the items that stand next to it.

A type keeps a value if none of them changes it.  The normal form is then the same as the value,
and only then.
-/

namespace DBusHost

open Value

namespace BasicType

/-- The basic type keeps the value. -/
def Keeps (x : Value) : BasicType → Prop
  | boolean => (Value.bool x.truth).same x = true
  | double => ∀ d, x.toDouble = .ok d → (Value.double d).same x = true
  | signature => x.text?.isSome = true
  -- the others refuse what they would change
  | _ => True

end BasicType

namespace Value

/-- The type keeps the value. -/
inductive Keeps (v : Validator) : SigType → Value → Prop
  | basic {b : BasicType} {x : Value} (h : b.Keeps x) : Keeps v (.basic b) x
  /-- A tuple would come back as a list, and a list as a tuple where the type is a struct. -/
  | array {e : SigType} {x : Value} {xs : List Value} (hx : x.sequence? = some xs)
      (hlist : x.tupleItems? = none) (h : ∀ y ∈ xs, Keeps v e y) : Keeps v (.array e) x
  | dict {k : BasicType} {w : SigType} {x : Value} {es : List (Value × Value)}
      (hx : x.entries? = some es) (hkeys : ∀ e ∈ es, k.Keeps e.1)
      (hvalues : ∀ e ∈ es, Keeps v w e.2) : Keeps v (.dict k w) x
  | struct {fs : List SigType} {x : Value} {xs : List Value} (hx : x.tupleItems? = some xs)
      (h : List.Forall₂ (Keeps v) fs xs) : Keeps v (.struct fs) x
  | variant {x : Value} {s : String} {t : SigType} (hguess : x.guessPlain v = .ok s)
      (hread : readTypes? s = some [t]) (h : Keeps v t x) : Keeps v .variant x

/-- No two keys of a map in the value are the same. -/
def Keyed (x : Value) : Prop := ∀ y es, Inside y x → y.entries? = some es →
  es.Pairwise fun e f => f.1.same e.1 = false

variable {x y z : Value}

theorem essence?_bytesRead (x : Value) : x.bytesRead.essence? = x.essence? := by
  cases x <;> rfl

theorem IsPlain.same_bytesRead (hy : y.IsPlain) :
    y.same x.bytesRead = true ↔ y.same x = true := by
  rw [hy.same_iff, hy.same_iff, essence?_bytesRead]

end Value

/-! ## Basic types -/

namespace BasicType.Normal

variable {v : Validator} {b : BasicType} {x x' y z : Value}

/-- The normal form as a basic type is a number or a text. -/
theorem isPlain (h : b.Normal v x y) : y.IsPlain := by
  cases b with
  | boolean =>
      obtain rfl := h
      exact .inl rfl
  | string | objectPath | signature =>
      obtain ⟨-, -, rfl⟩ := h
      exact .inr rfl
  | _ =>
      obtain ⟨-, -, rfl⟩ := h
      exact .inl rfl

/-- A value is the same as its normal form as a basic type if and only if the type keeps it. -/
theorem same_iff (h : b.Normal v x y) : y.same x.bytesRead = true ↔ b.Keeps x := by
  rw [h.isPlain.same_bytesRead]
  cases b with
  | boolean =>
      obtain rfl := h
      rfl
  | double =>
      obtain ⟨d, hd, rfl⟩ := h
      constructor
      · intro hsame e he
        rwa [Except.ok.inj (he.symm.trans hd)]
      · exact fun hkeeps => hkeeps d hd
  | signature =>
      obtain ⟨g, hg, rfl⟩ := h
      constructor
      · intro hsame
        obtain ⟨-, ⟨⟩, hx⟩ := (IsPlain.same_iff (.inr rfl)).mp hsame
        exact Option.isSome_of_eq_some (text?_of_essence? hx)
      · intro hkeeps
        obtain ⟨s, hs⟩ := Option.isSome_iff_exists.mp hkeeps
        exact (same_iff_of_text? rfl hs).mpr (text_eq_of_ofValue hg hs)
  | string | objectPath =>
      obtain ⟨s, hs, rfl⟩ := h
      exact iff_of_true ((same_iff_of_text? rfl hs).mpr rfl) trivial
  | _ =>
      obtain ⟨i, hi, rfl⟩ := h
      exact iff_of_true (same_of_integer? rfl hi) trivial

theorem essence?_of_keeps (h : b.Normal v x y) (hkeeps : b.Keeps x) :
    y.essence? = x.essence? := by
  obtain ⟨p, hy, hx⟩ := h.isPlain.same_iff.mp (h.isPlain.same_bytesRead.mp (h.same_iff.mpr hkeeps))
  rw [hy, hx]

/-- A value that is the same as the normal form of another one does not change any more. -/
theorem settled (hy : b.Normal v x y) (hz : b.Normal v x' z) (h : y.same x'.bytesRead = true) :
    y.same z = true := by
  obtain ⟨p, hp, hx'⟩ := hy.isPlain.same_iff.mp (hy.isPlain.same_bytesRead.mp h)
  rw [hy.isPlain.same_iff]
  refine ⟨p, hp, ?_⟩
  cases b with
  | boolean =>
      obtain rfl := hy
      obtain rfl := hz
      obtain rfl : Essence.number (x.truth.toInt : ℚ) = p :=
        Option.some.inj ((essence?_of_integer? rfl).symm.trans hp)
      have htruth := truth_of_essence? hx'
      have hsame : x'.truth = x.truth := by
        rw [Bool.eq_iff_iff, htruth]
        cases x.truth <;> simp [Bool.toInt]
      rw [hsame]
      exact hp
  | double =>
      obtain ⟨d, -, rfl⟩ := hy
      obtain ⟨e, he, rfl⟩ := hz
      exact essence?_of_toDouble he hx' hp
  | signature =>
      obtain ⟨g, -, rfl⟩ := hy
      obtain ⟨g', hg', rfl⟩ := hz
      obtain rfl : Essence.text g.text = p := Option.some.inj hp
      exact essence?_of_text? (congrArg some (text_eq_of_ofValue hg' (text?_of_essence? hx')))
  | string | objectPath =>
      obtain ⟨s, -, rfl⟩ := hy
      obtain ⟨s', hs', rfl⟩ := hz
      exact (essence?_of_text? rfl).trans ((essence?_of_text? hs').symm.trans hx')
  | _ =>
      obtain ⟨i, -, rfl⟩ := hy
      obtain ⟨i', hi', rfl⟩ := hz
      exact (essence?_of_integer? rfl).trans ((essence?_of_integer? hi').symm.trans hx')

end BasicType.Normal

/-! ## Maps -/

namespace Value

theorem find?_of_sameEntries {es fs : List (Value × Value)} (h : sameEntries es fs = true) :
    ∀ e ∈ es, ∃ f, fs.find? (fun f => e.1.same f.1) = some f ∧ e.2.same f.2 = true := by
  induction es with
  | nil => simp
  | cons e es ih =>
      simp only [sameEntries, Bool.and_eq_true] at h
      obtain ⟨hfirst, hrest⟩ := h
      refine List.forall_mem_cons.mpr ⟨?_, ih hrest⟩
      split at hfirst
      · next f hfind => exact ⟨f, hfind, hfirst⟩
      · cases hfirst

section

/-! Each entry of a map stands next to its normal form here. -/

variable {v : Validator} {k : BasicType} {ps : List ((Value × Value) × Value × Value)}

/-- If the normal forms of no two keys are the same, each of them is the same as itself only. -/
theorem eq_of_same (hkeys : ∀ p ∈ ps, k.Normal v p.1.1 p.2.1)
    (hdiffer : (ps.map Prod.snd).Pairwise fun f f' => f'.1.same f.1 = false) :
    ∀ p ∈ ps, ∀ q ∈ ps, p.2.1.same q.2.1 = true → p = q := by
  have hpairs := List.pairwise_map.mp hdiffer
  refine List.Pairwise.forall_of_forall_of_flip (fun p _ _ => rfl) ?_ ?_
  · refine hpairs.imp_of_mem fun hp hq h hsame => ?_
    rw [(hkeys _ hp).isPlain.same_comm (hkeys _ hq).isPlain, h] at hsame
    cases hsame
  · exact hpairs.imp fun h hsame => absurd (h.symm.trans hsame) Bool.false_ne_true

/-- The key that is the same as the normal form of a key is that key, if there is any. -/
theorem find?_normal_iff (hkeys : ∀ p ∈ ps, k.Normal v p.1.1 p.2.1)
    (hdiffer : (ps.map Prod.snd).Pairwise fun f f' => f'.1.same f.1 = false)
    {p : (Value × Value) × Value × Value} (hp : p ∈ ps) {f : Value × Value} :
    (ps.map fun q => (q.1.1.bytesRead, q.1.2.bytesRead)).find? (fun f => p.2.1.same f.1) = some f ↔
      k.Keeps p.1.1 ∧ f = (p.1.1.bytesRead, p.1.2.bytesRead) := by
  have honly : ∀ f, (ps.map fun q => (q.1.1.bytesRead, q.1.2.bytesRead)).find?
      (fun f => p.2.1.same f.1) = some f →
        k.Keeps p.1.1 ∧ f = (p.1.1.bytesRead, p.1.2.bytesRead) := by
    intro f hfind
    obtain ⟨q, hq, rfl⟩ := List.mem_map.mp (List.mem_of_find?_eq_some hfind)
    have hsame : p.2.1.same q.1.1.bytesRead = true := by simpa using List.find?_some hfind
    obtain rfl := eq_of_same hkeys hdiffer p hp q hq ((hkeys p hp).settled (hkeys q hq) hsame)
    exact ⟨(hkeys p hp).same_iff.mp hsame, rfl⟩
  refine ⟨honly f, ?_⟩
  rintro ⟨hkeeps, rfl⟩
  have hfound : ((ps.map fun q => (q.1.1.bytesRead, q.1.2.bytesRead)).find?
      fun f => p.2.1.same f.1).isSome = true :=
    List.find?_isSome.mpr ⟨(p.1.1.bytesRead, p.1.2.bytesRead), List.mem_map.mpr ⟨p, hp, rfl⟩,
      (hkeys p hp).same_iff.mpr hkeeps⟩
  obtain ⟨f, hfind⟩ := Option.isSome_iff_exists.mp hfound
  exact (honly f hfind).2 ▸ hfind

/-- The normal forms of different keys that are kept are different. -/
theorem pairwise_of_keeps (hkeys : ∀ p ∈ ps, k.Normal v p.1.1 p.2.1)
    (hdiffer : (ps.map Prod.fst).Pairwise fun e e' => e'.1.same e.1 = false)
    (hkeeps : ∀ p ∈ ps, k.Keeps p.1.1) :
    (ps.map Prod.snd).Pairwise fun f f' => f'.1.same f.1 = false := by
  refine List.pairwise_map.mpr ((List.pairwise_map.mp hdiffer).imp_of_mem ?_)
  intro p q hp hq h
  rw [Bool.eq_false_iff]
  intro hsame
  obtain ⟨a, ha, ha'⟩ := (hkeys q hq).isPlain.same_iff.mp hsame
  rw [(hkeys q hq).essence?_of_keeps (hkeeps q hq)] at ha
  rw [(hkeys p hp).essence?_of_keeps (hkeeps p hp)] at ha'
  have hkept := (isPlain_of_essence? ha).same_iff.mpr ⟨a, ha, ha'⟩
  exact Bool.false_ne_true (h.symm.trans hkept)

/-- The normal form of a map is the same map if and only if all keys and values are kept.  A key
that is not kept gets lost, whether or not it becomes the same as another one. -/
theorem sameEntries_normal_iff (hkeys : ∀ p ∈ ps, k.Normal v p.1.1 p.2.1)
    (hdiffer : (ps.map Prod.fst).Pairwise fun e e' => e'.1.same e.1 = false) :
    ((Entries.ofPairs (ps.map Prod.snd)).length = ps.length ∧
      sameEntries (Entries.ofPairs (ps.map Prod.snd))
        (ps.map fun q => (q.1.1.bytesRead, q.1.2.bytesRead)) = true) ↔
      ∀ p ∈ ps, k.Keeps p.1.1 ∧ p.2.2.same p.1.2.bytesRead = true := by
  constructor
  · rintro ⟨hlength, hsame⟩ p hp
    have hpairs := Entries.pairwise_of_length_ofPairs (hlength.trans (List.length_map _).symm)
    rw [Entries.ofPairs_eq_self hpairs] at hsame
    obtain ⟨f, hfind, hvalue⟩ := find?_of_sameEntries hsame p.2 (List.mem_map_of_mem hp)
    obtain ⟨hkeeps, rfl⟩ := (find?_normal_iff hkeys hpairs hp).mp hfind
    exact ⟨hkeeps, hvalue⟩
  · intro h
    have hpairs := pairwise_of_keeps hkeys hdiffer fun p hp => (h p hp).1
    rw [Entries.ofPairs_eq_self hpairs]
    refine ⟨List.length_map _, sameEntries_of_find? (List.forall_mem_map.mpr fun p hp => ?_)⟩
    exact ⟨_, (find?_normal_iff hkeys hpairs hp).mpr ⟨(h p hp).1, rfl⟩, (h p hp).2⟩

end

/-! ## All types -/

namespace Keyed

variable {x : Value}

theorem item {xs : List Value} (h : x.Keyed) (hx : x.sequence? = some xs) :
    ∀ z ∈ xs, z.Keyed := fun _ hz y es hy => h y es (.item hx hz hy)

theorem entry {es : List (Value × Value)} (h : x.Keyed) (hx : x.entries? = some es) :
    ∀ e ∈ es, e.2.Keyed := fun _ he y es hy => h y es (.entry hx he hy)

theorem of_parts (hkeys : ∀ es, x.entries? = some es → es.Pairwise fun e f => f.1.same e.1 = false)
    (hitems : ∀ xs, x.sequence? = some xs → ∀ z ∈ xs, z.Keyed)
    (hentries : ∀ es, x.entries? = some es → ∀ e ∈ es, e.1.Keyed ∧ e.2.Keyed) : x.Keyed := by
  intro y es hy hes
  cases hy with
  | self => exact hkeys es hes
  | item hx hz hy => exact hitems _ hx _ hz y es hy hes
  | key hx he hy => exact (hentries _ hx _ he).1 y es hy hes
  | entry hx he hy => exact (hentries _ hx _ he).2 y es hy hes

theorem of_isPlain (hx : x.IsPlain) : x.Keyed := by
  have hparts : x.sequence? = none ∧ x.entries? = none := by
    cases x <;>
      simp_all [IsPlain, numeric?, text?, sequence?, items?, bytes?, entries?]
  exact of_parts (by simp [hparts.2]) (by simp [hparts.1]) (by simp [hparts.2])

theorem list {xs : List Value} (h : ∀ z ∈ xs, z.Keyed) : (Value.list xs).Keyed := by
  refine of_parts (by simp [entries?]) ?_ (by simp [entries?])
  simpa [sequence?, items?] using h

end Keyed

end Value

section

open Value

variable {v : Validator}

theorem array_same_iff {x : Value} {xs ys : List Value} {tag : Tag}
    (hx : x.sequence? = some xs) : (Value.array ys tag).same x.bytesRead = true ↔
      x.tupleItems? = none ∧ sameItems ys (xs.map bytesRead) = true := by
  have hbytes : ∀ bs : List UInt8, (bs.map ofByte).map bytesRead = bs.map ofByte := by
    intro bs
    rw [List.map_map]
    rfl
  cases x with
  | bytes bs | buffer bs =>
      obtain rfl : bs.map ofByte = xs := Option.some.inj hx
      rw [hbytes, same]
      simp [bytesRead, listItems?, tupleItems?]
  | list zs | array zs _ =>
      obtain rfl : zs = xs := Option.some.inj hx
      rw [same]
      simp [bytesRead, bytesReadAll_eq_map, listItems?, tupleItems?]
  | tuple zs | struct zs _ =>
      rw [same]
      simp [bytesRead, listItems?, tupleItems?]
  | _ => cases hx

theorem struct_same_iff {x : Value} {xs ys : List Value} {tag : Tag}
    (hx : x.items? = some xs) : (Value.struct ys tag).same x.bytesRead = true ↔
      x.tupleItems? = some xs ∧ sameItems ys (xs.map bytesRead) = true := by
  cases x with
  | list zs | array zs _ =>
      rw [same]
      simp [bytesRead, tupleItems?]
  | tuple zs | struct zs _ =>
      obtain rfl : zs = xs := Option.some.inj hx
      rw [same]
      simp [bytesRead, bytesReadAll_eq_map, tupleItems?]
  | _ => cases hx

theorem keeps_replicate {e : SigType} {xs : List Value} :
    List.Forall₂ (Keeps v) (List.replicate xs.length e) xs ↔ ∀ y ∈ xs, Keeps v e y := by
  induction xs with
  | nil => simp
  | cons x xs ih => simp [List.replicate_succ, ih]

mutual

/-- The normal form of a value is the same value if and only if the type keeps it. -/
theorem Normal.same_iff : {n : Nat} → {t : SigType} → {x y : Value} →
    Normal v n t x y → x.Keyed → (y.same x.bytesRead = true ↔ x.Keeps v t)
  | _, _, _, _, .basic h, _ => by
      rw [h.same_iff]
      refine ⟨.basic, fun hkeeps => ?_⟩
      cases hkeeps with
      | basic h => exact h
  | _, _, _, _, .array hx h, hkeyed => by
      rw [array_same_iff hx, h.sameItems_iff (hkeyed.item hx), keeps_replicate]
      refine ⟨fun hkeeps => .array hx hkeeps.1 hkeeps.2, fun hkeeps => ?_⟩
      cases hkeeps with
      | array hx' hlist hitems =>
          obtain rfl := Option.some.inj (hx.symm.trans hx')
          exact ⟨hlist, hitems⟩
  | _, _, _, _, .struct hx h, hkeyed => by
      rw [struct_same_iff hx, h.sameItems_iff (hkeyed.item (sequence?_eq_some_of_items? hx))]
      refine ⟨fun hkeeps => .struct hkeeps.1 hkeeps.2, fun hkeeps => ?_⟩
      cases hkeeps with
      | struct hx' hitems =>
          obtain rfl := Option.some.inj (hx.symm.trans (items?_of_tupleItems? hx'))
          exact ⟨hx', hitems⟩
  | _, _, x, _, .dict hx h, hkeyed => by
      obtain ⟨ps, rfl, rfl, hps⟩ := h.exists_pairs (hkeyed.entry hx)
      have hkeys := fun p hp => (hps p hp).1
      have hread : (ps.map Prod.fst).map (fun e => (e.1.bytesRead, e.2.bytesRead)) =
          ps.map fun q => (q.1.1.bytesRead, q.1.2.bytesRead) := by
        rw [List.map_map]
        rfl
      have hsame := sameEntries_normal_iff hkeys (hkeyed x _ .self hx)
      rw [same, entries?_bytesRead hx, hread]
      simp only [List.length_map, Bool.and_eq_true, beq_iff_eq, hsame]
      constructor
      · intro hkeeps
        refine .dict hx (List.forall_mem_map.mpr fun p hp => (hkeeps p hp).1) ?_
        exact List.forall_mem_map.mpr fun p hp => (hps p hp).2.mp (hkeeps p hp).2
      · intro hkeeps p hp
        cases hkeeps with
        | dict hx' hkept hvalues =>
            obtain rfl := Option.some.inj (hx.symm.trans hx')
            have hmem : p.1 ∈ ps.map Prod.fst := List.mem_map_of_mem hp
            exact ⟨hkept _ hmem, (hps p hp).2.mpr (hvalues _ hmem)⟩
  | _, _, _, _, .variant hguess hread h, hkeyed => by
      rw [h.same_iff hkeyed]
      refine ⟨.variant hguess hread, fun hkeeps => ?_⟩
      cases hkeeps with
      | variant hguess' hread' hkept =>
          obtain rfl := Except.ok.inj (hguess.symm.trans hguess')
          obtain rfl := List.head_eq_of_cons_eq (Option.some.inj (hread.symm.trans hread'))
          exact hkept

theorem NormalAll.sameItems_iff : {ts : List SigType} → {xs ys : List Value} →
    NormalAll v ts xs ys → (∀ x ∈ xs, x.Keyed) →
    (sameItems ys (xs.map bytesRead) = true ↔ List.Forall₂ (Keeps v) ts xs)
  | _, _, _, .nil, _ => by simp [sameItems]
  | _, _, _, .cons h hs, hkeyed => by
      have hfirst := h.same_iff (hkeyed _ (by simp))
      have hrest := hs.sameItems_iff fun x hx => hkeyed x (by simp [hx])
      simp [sameItems, hfirst, hrest]

theorem NormalEntries.exists_pairs : {k : BasicType} → {w : SigType} →
    {es fs : List (Value × Value)} → NormalEntries v k w es fs → (∀ e ∈ es, e.2.Keyed) →
    ∃ ps : List ((Value × Value) × Value × Value), es = ps.map Prod.fst ∧ fs = ps.map Prod.snd ∧
      ∀ p ∈ ps, k.Normal v p.1.1 p.2.1 ∧ (p.2.2.same p.1.2.bytesRead = true ↔ p.1.2.Keeps v w)
  | _, _, _, _, .nil, _ => ⟨[], rfl, rfl, by simp⟩
  | _, _, _, _, .cons hkey h hs, hkeyed => by
      obtain ⟨hfirst, hrest⟩ := List.forall_mem_cons.mp hkeyed
      obtain ⟨ps, rfl, rfl, hps⟩ := hs.exists_pairs hrest
      exact ⟨((_, _), _, _) :: ps, rfl, rfl,
        List.forall_mem_cons.mpr ⟨⟨hkey, h.same_iff hfirst⟩, hps⟩⟩

end

end

namespace Marshal

variable {v : Validator}

theorem exists_desk_of_ok {w : Writing Unit} {d : Desk} (h : (w.run.run d).1 = .ok ()) :
    ∃ d', w.run.run d = (.ok (), d') := ⟨_, Prod.ext h rfl⟩

/-- What has been appended without a signature has been guessed to be a list of types. -/
theorem guessed_of_append {x : Value} {d d' : Desk}
    (h : (append v .null x).run.run d = (.ok (), d')) :
    ∃ s ts, Value.guessAll v (arguments x) = .ok s ∧ Signature.ofText v s = .ok ⟨s⟩ ∧
      readTypes? s = some ts := by
  rw [append_eq] at h
  cases hts : typesFor v .null (arguments x) with
  | error f =>
      rw [hts] at h
      cases (Prod.mk.inj h).1
  | ok ts =>
      obtain ⟨signature, hguess, hrest⟩ := eq_ok_of_bind hts
      obtain ⟨g, hg, htypes⟩ := eq_ok_of_bind hrest
      cases hs : Value.guessAll v (arguments x) with
      | error f => simp [hs] at hguess
      | ok s =>
          obtain rfl : .text s = signature := by simpa [hs] using hguess
          have hmade : Signature.ofText v s = .ok g := hg
          obtain rfl := (Signature.check_eq_ok_iff.mp hmade).2.2
          exact ⟨s, ts, rfl, hmade, Signature.readTypes?_of_types hmade htypes⟩

end Marshal

namespace Message

/-- Values that have been appended without a signature conform to the types that are guessed for
them, and are read in a normal form. -/
theorem exists_normalAll_of_append_null {v : Validator} (hv : v.Exact) {xs : List Value}
    (hclean : ∀ x ∈ xs, x.Clean v) {m : Message} (hbody : m.sheet.body = [])
    {calls : List PenCall} {d : Desk}
    (h : (Marshal.append v .null (.list xs)).run.run ⟨[], m.sheet, calls⟩ = (.ok (), d)) :
    ∃ s ts ys, Value.guessAll v xs = .ok s ∧ readTypes? s = some ts ∧
      List.Forall₂ (Conforms v) ts xs ∧ NormalAll v ts xs ys ∧
      (({ m with sheet := d.sheet }).objects v).run.run [] = (.ok ys, []) := by
  obtain ⟨s, ts, hguess, hmade, hread⟩ := Marshal.guessed_of_append h
  rw [Marshal.append_null hguess] at h
  have hts := Signature.valid_of_readTypes? hv hmade hread
  have hsignature : Signature.ofValue v (.text s) = .ok ⟨s⟩ := hmade
  obtain ⟨items, -, hencodes⟩ := Marshal.encodesAll_of_append hsignature hread h
  obtain ⟨ys, hnormal, hobjects⟩ := exists_normalAll_of_append hv hsignature hread hts
    (Value.clean_list hclean) hbody h
  exact ⟨s, ts, ys, hguess, hread, hencodes.conforms, hnormal, hobjects⟩

/-- Values are appended, without a signature, to a message that has no arguments.  If this
succeeds, each of them conforms to the type at its place among those that are guessed, and the
arguments are read.  They are the same values, with bytes read as numbers, if and only if each
type keeps the value at its place. -/
theorem objects_append_keeps {v : Validator} (hv : v.Exact) {xs : List Value}
    (hclean : ∀ x ∈ xs, x.Clean v) (hkeyed : ∀ x ∈ xs, x.Keyed) {m : Message}
    (hbody : m.sheet.body = []) {calls : List PenCall} {d : Desk}
    (h : (Marshal.append v .null (.list xs)).run.run ⟨[], m.sheet, calls⟩ = (.ok (), d)) :
    ∃ s ts ys, Value.guessAll v xs = .ok s ∧ readTypes? s = some ts ∧
      List.Forall₂ (Conforms v) ts xs ∧
      (({ m with sheet := d.sheet }).objects v).run.run [] = (.ok ys, []) ∧
      (Value.sameItems ys (xs.map Value.bytesRead) = true ↔
        List.Forall₂ (Value.Keeps v) ts xs) := by
  obtain ⟨s, ts, ys, hguess, hread, hconforms, hnormal, hobjects⟩ :=
    exists_normalAll_of_append_null hv hclean hbody h
  exact ⟨s, ts, ys, hguess, hread, hconforms, hobjects, hnormal.sameItems_iff hkeyed⟩

/-- A truth value among integers is kept as an integer. -/
theorem objects_append_keeps_entry : ∃ d ys,
    (Marshal.append .ofGrammar .null
        (.list [.map [(.text "k", .list [.int 1, .bool true])]])).run.run ⟨[], .ofBody [], []⟩ =
        (.ok (), d) ∧
      (Message.objects .ofGrammar { kind := 1, sheet := d.sheet }).run.run [] = (.ok ys, []) ∧
      Value.sameItems ys
        ([.map [(.text "k", .list [.int 1, .bool true])]].map Value.bytesRead) = true := by
  obtain ⟨d, happend⟩ : ∃ d, (Marshal.append .ofGrammar .null
      (.list [.map [(.text "k", .list [.int 1, .bool true])]])).run.run ⟨[], .ofBody [], []⟩ =
        (.ok (), d) := Marshal.exists_desk_of_ok (by decide +kernel)
  have hclean : Value.Clean .ofGrammar (.list [.int 1, .bool true]) := Value.clean_list
    (by simpa using ⟨Value.clean_of_integer rfl, Value.clean_of_integer rfl⟩)
  have hkeyed : Value.Keyed (.list [.int 1, .bool true]) := Value.Keyed.list
    (by simpa using ⟨.of_isPlain (.inl rfl), .of_isPlain (.inl rfl)⟩)
  have hmap : Value.Keyed (.map [(.text "k", .list [.int 1, .bool true])]) := by
    refine .of_parts ?_ (by simp [Value.sequence?, Value.items?, Value.bytes?]) ?_
    · rintro _ ⟨⟩
      simp
    · rintro _ ⟨⟩
      simpa using ⟨.of_isPlain (.inr rfl), hkeyed⟩
  obtain ⟨s, ts, ys, hguess, hread, -, hobjects, hiff⟩ :=
    objects_append_keeps Validator.exact_ofGrammar (m := { kind := 1 })
      (by simpa using Value.clean_map (by simpa using ⟨Value.clean_text (by decide), hclean⟩))
      (by simpa using hmap) rfl happend
  obtain rfl : "a\x7bsai\x7d" = s := Except.ok.inj hguess
  obtain rfl : [.dict .string (.array (.basic .int32))] = ts := Option.some.inj hread
  have hitems : Value.Keeps .ofGrammar (.array (.basic .int32)) (.list [.int 1, .bool true]) :=
    .array rfl rfl fun _ _ => .basic trivial
  have hkeeps : Value.Keeps .ofGrammar (.dict .string (.array (.basic .int32)))
      (.map [(.text "k", .list [.int 1, .bool true])]) :=
    .dict rfl (fun _ _ => trivial) (by simpa using hitems)
  exact ⟨d, ys, happend, hobjects, hiff.mpr (.cons hkeeps .nil)⟩

/-- The number next to a truth value is appended as a truth value, and not refused. -/
theorem objects_append_truth : ∃ d ys,
    (Marshal.append .ofGrammar .null (.list [.list [.bool true, .int 5]])).run.run
        ⟨[], .ofBody [], []⟩ = (.ok (), d) ∧
      (Message.objects .ofGrammar { kind := 1, sheet := d.sheet }).run.run [] = (.ok ys, []) ∧
      Value.sameItems ys ([.list [.bool true, .int 5]].map Value.bytesRead) = false := by
  obtain ⟨d, happend⟩ : ∃ d, (Marshal.append .ofGrammar .null
      (.list [.list [.bool true, .int 5]])).run.run ⟨[], .ofBody [], []⟩ = (.ok (), d) :=
    Marshal.exists_desk_of_ok (by decide +kernel)
  have hclean : Value.Clean .ofGrammar (.list [.bool true, .int 5]) := Value.clean_list
    (by simpa using ⟨Value.clean_of_integer rfl, Value.clean_of_integer rfl⟩)
  obtain ⟨s, ts, ys, hguess, hread, -, hnormal, hobjects⟩ :=
    exists_normalAll_of_append_null Validator.exact_ofGrammar (m := { kind := 1 })
      (by simpa using hclean) rfl happend
  obtain rfl : "ab" = s := Except.ok.inj hguess
  obtain rfl : [.array (.basic .boolean)] = ts := Option.some.inj hread
  obtain rfl := hnormal.unique
    (.cons (.array rfl (.cons (.basic rfl) (.cons (.basic rfl) .nil))) .nil)
  exact ⟨d, _, happend, hobjects, by decide⟩

end Message

end DBusHost
