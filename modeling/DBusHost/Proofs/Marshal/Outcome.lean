import DBusHost.Proofs.Marshal.Conformance
import DBusHost.Proofs.Marshal.Encoding

/-!
# What appending puts into a body

A value has at most one item as a type, and it has one only if it conforms to the type.  So,
while no native routine fails, appending puts some items behind the body if and only if they
are the values written as the types of the signature.
-/

namespace DBusHost

variable {v : Validator}

mutual

/-- A value is written as at most one item of a type. -/
theorem Encodes.unique : {t : SigType} → {x : Value} → {item item' : Item} →
    Encodes v t x item → Encodes v t x item' → item = item'
  | _, _, _, _, .basic h, .basic h' => by rw [Except.ok.inj (h.symm.trans h')]
  | _, _, _, _, .array hx h, .array hx' h' => by
      obtain rfl := Option.some.inj (hx.symm.trans hx')
      rw [h.unique h']
  | _, _, _, _, .dict hx h, .dict hx' h' => by
      obtain rfl := Option.some.inj (hx.symm.trans hx')
      rw [h.unique h']
  | _, _, _, _, .struct hx h, .struct hx' h' => by
      obtain rfl := Option.some.inj (hx.symm.trans hx')
      rw [h.unique h']
  | _, _, _, _, .variant hguess _ hread h, .variant hguess' _ hread' h' => by
      obtain rfl := Except.ok.inj (hguess.symm.trans hguess')
      obtain rfl := List.head_eq_of_cons_eq (Option.some.inj (hread.symm.trans hread'))
      rw [h.unique h']

theorem EncodesAll.unique : {ts : List SigType} → {xs : List Value} →
    {items items' : List Item} → EncodesAll v ts xs items → EncodesAll v ts xs items' →
    items = items'
  | _, _, _, _, .nil, .nil => rfl
  | _, _, _, _, .cons h hs, .cons h' hs' => by rw [h.unique h', hs.unique hs']

theorem EncodesEntries.unique : {k : BasicType} → {w : SigType} →
    {es : List (Value × Value)} → {items items' : List Item} →
    EncodesEntries v k w es items → EncodesEntries v k w es items' → items = items'
  | _, _, _, _, _, .nil, .nil => rfl
  | _, _, _, _, _, .cons h hs, .cons h' hs' => by rw [h.unique h', hs.unique hs']

end

theorem forall_of_forall₂_replicate {R : SigType → Value → Prop} {e : SigType}
    {xs : List Value} (h : List.Forall₂ R (List.replicate xs.length e) xs) :
    ∀ y ∈ xs, R e y := by
  induction xs with
  | nil => simp
  | cons x xs ih =>
      obtain ⟨hx, hxs⟩ := List.forall₂_cons.mp h
      simpa [hx] using ih hxs

mutual

/-- Only a value that conforms to a type is written as the type. -/
theorem Encodes.conforms : {t : SigType} → {x : Value} → {item : Item} →
    Encodes v t x item → Conforms v t x
  | _, _, _, .basic h => .basic (BasicType.exists_cell_iff.mp ⟨_, h⟩)
  | _, _, _, .array hx h => .array hx (forall_of_forall₂_replicate h.conforms)
  | _, _, _, .dict hx h =>
      .dict hx (fun e he => (h.conforms e he).1) fun e he => (h.conforms e he).2
  | _, _, _, .struct hx h => .struct hx h.conforms
  | _, _, _, .variant hguess hs hread h => by
      obtain ⟨hnul, hvalid, -⟩ := Signature.check_eq_ok_iff.mp hs
      exact .variant hguess hnul hvalid hread h.conforms

theorem EncodesAll.conforms : {ts : List SigType} → {xs : List Value} → {items : List Item} →
    EncodesAll v ts xs items → List.Forall₂ (Conforms v) ts xs
  | _, _, _, .nil => .nil
  | _, _, _, .cons h hs => .cons h.conforms hs.conforms

theorem EncodesEntries.conforms : {k : BasicType} → {w : SigType} →
    {es : List (Value × Value)} → {items : List Item} → EncodesEntries v k w es items →
    ∀ e ∈ es, Conforms v (.basic k) e.1 ∧ Conforms v w e.2
  | _, _, _, _, .nil => by simp
  | _, _, _, _, .cons h hs => by
      obtain ⟨hkey, hrest⟩ := List.forall₂_cons.mp h.conforms
      obtain ⟨hvalue, -⟩ := List.forall₂_cons.mp hrest
      intro e he
      obtain rfl | he := List.mem_cons.mp he
      · exact ⟨hkey, hvalue⟩
      · exact hs.conforms e he

end

namespace Marshal

/-- What was appended to a body is one item for each type. -/
theorem encodesAll_of_append {signature x : Value} {s : String} {ts : List SigType}
    (hsignature : Signature.ofValue v signature = .ok ⟨s⟩) (hread : readTypes? s = some ts)
    {d d' : Desk} (h : (append v signature x).run.run d = (.ok (), d')) :
    ∃ items, d'.sheet.body = d.sheet.body ++ items ∧ EncodesAll v ts (arguments x) items := by
  rw [append_eq_writeFields hsignature hread] at h
  have hone : ∀ t ∈ ts, ∀ y ∈ arguments x, WritesOne v t y := fun t _ y _ => writesOne t y
  obtain ⟨items, hgrown, hitems⟩ := adds_writeFields hone .body d trivial
  rw [h] at hgrown hitems
  exact ⟨items, by simpa using hgrown.body, hitems⟩

/-- While no native routine fails, the items that are put behind a body are the values written
as the types of the signature, and whatever can be written so is put there. -/
theorem append_ok_iff_encodesAll {signature x : Value} {s : String} {ts : List SigType}
    (hsignature : Signature.ofValue v signature = .ok ⟨s⟩) (hread : readTypes? s = some ts)
    {d : Desk} (hd : d.failures = []) {items : List Item} :
    (∃ d', (append v signature x).run.run d = (.ok (), d') ∧
      d'.sheet.body = d.sheet.body ++ items) ↔ EncodesAll v ts (arguments x) items := by
  constructor
  · rintro ⟨d', happend, hbody⟩
    obtain ⟨items', hbody', hitems'⟩ := encodesAll_of_append hsignature hread happend
    obtain rfl : items = items' := List.append_cancel_left (hbody.symm.trans hbody')
    exact hitems'
  · intro h
    rcases happend : (append v signature x).run.run d with ⟨r, d'⟩
    have hok := ((acceptsIff_append hsignature hread x).run_eq_ok_iff hd).mpr h.conforms
    rw [happend] at hok
    obtain rfl : r = .ok () := hok
    obtain ⟨items', hbody', hitems'⟩ := encodesAll_of_append hsignature hread happend
    obtain rfl := h.unique hitems'
    exact ⟨d', rfl, hbody'⟩

end Marshal

end DBusHost
