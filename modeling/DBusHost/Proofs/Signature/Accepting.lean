import DBusHost.Container.Use
import DBusHost.Message.Basic
import DBusHost.Proofs.Signature.Carried
import DBusHost.Proofs.Signature.Pieces

/-!
# What becomes of accepted signatures

Values whose signatures are all accepted only lead to such values again.  A text becomes a
signature only if it is accepted; a piece that is cut out of a signature is one of its complete
types; and what is put into a container, by a program or by reading a message, has been accepted
before.
-/

namespace DBusHost

open Attempt

variable {v : Validator}

/-! ## Signatures and containers that are made -/

namespace Signature

/-- A value becomes an accepted signature, unless it is one that is not accepted. -/
theorem accepted_of_ofValue {x : Value} {g : Signature} (hx : x.Accepted v)
    (h : ofValue v x = .ok g) : g.Accepted v := by
  have hbytes : ∀ bs, ofValue.ofBytes v bs = .ok g → g.Accepted v := by
    intro bs hbs
    unfold ofValue.ofBytes at hbs
    split at hbs
    · exact (accepted_of_check hbs).1
    · cases hbs
  cases x with
  | signature g' =>
      obtain rfl := Except.ok.inj h
      exact hx g' (by simp [Value.signatures])
  | text s => exact (accepted_of_check h).1
  | path s => exact (accepted_of_check h).1
  | bytes bs | buffer bs => exact hbytes bs h
  | _ => cases h

/-- An accepted signature is the text of valid types, and these are its types. -/
theorem Accepted.exists_types (hv : v.Exact) {g : Signature} (hg : g.Accepted v) :
    ∃ ts, g = ⟨SigType.listText ts⟩ ∧ SigType.Valid ts ∧ g.types = .ok ts := by
  obtain ⟨ts, htext, hvalid⟩ := SigType.isWellFormed_iff.mp ((hv g.text).mp hg.2)
  obtain ⟨text⟩ := g
  obtain rfl : text = SigType.listText ts := htext
  have hread := readTypes?_eq_some_iff.mpr ⟨rfl, hvalid.nonempty⟩
  exact ⟨ts, rfl, hvalid, by simp only [types, hread]⟩

/-- A piece of an accepted signature is accepted. -/
theorem Accepted.of_isTypeIn (hv : v.AcceptsTypes) {g p : Signature} (hg : g.Accepted v)
    (hp : IsTypeIn p.text.toList g.text.toList) : p.Accepted v := by
  obtain ⟨hnul, hvalid⟩ := hg
  refine ⟨?_, hv _ _ hvalid hp⟩
  simp only [Text.hasNul, List.contains_eq_mem, decide_eq_false_iff_not] at hnul ⊢
  exact fun hmem => hnul (hp.subset _ hmem)

end Signature

theorem accepted_of_normalSignature {x : Value} {g? : Option Signature} (hx : x.Accepted v)
    (h : normalSignature v x = .ok g?) : ∀ g ∈ g?, g.Accepted v := by
  unfold normalSignature at h
  split at h
  · obtain rfl := Except.ok.inj h
    simp
  · obtain ⟨g, hg, h⟩ := eq_ok_of_bind h
    obtain rfl := Except.ok.inj h
    simpa using Signature.accepted_of_ofValue hx hg

/-- All values among the arguments are accepted. -/
def Arguments.Accepted (v : Validator) (a : Arguments) : Prop :=
  (∀ x ∈ a.positional, x.Accepted v) ∧ ∀ p ∈ a.named, p.2.Accepted v

namespace Arguments

variable {a : Arguments}

theorem Accepted.named? (ha : a.Accepted v) {name : String} {x : Value}
    (h : a.named? name = some x) : x.Accepted v := by
  obtain ⟨l, l', hnamed, -⟩ := List.lookup_eq_some_iff.mp h
  exact ha.2 (name, x) (by simp [hnamed])

theorem Accepted.get? (ha : a.Accepted v) {i : Nat} {name : String} {x : Value}
    (h : a.get? i name = some x) : x.Accepted v := by
  obtain h | ⟨-, h⟩ := Option.or_eq_some_iff.mp h
  · exact ha.1 x (List.mem_of_getElem? h)
  · exact ha.named? h

/-- An argument that may be left out is accepted, if what stands for it has no signatures. -/
theorem accepted_getD {x? : Option Value} {default : Value} (hx : ∀ x, x? = some x → x.Accepted v)
    (hd : default.signatures = []) : (x?.getD default).Accepted v := by
  cases x? with
  | none => exact Value.accepted_of_signatures_eq_nil hd
  | some x => exact hx x rfl

/-- The source and the signature that an array or a dictionary is filled with are accepted. -/
theorem Accepted.filling (ha : a.Accepted v) {s : ContainerClass} {source : Value}
    {g? : Option Signature} (h : a.filling v s = .ok (source, g?)) :
    source.Accepted v ∧ ∀ g ∈ g?, g.Accepted v := by
  unfold Arguments.filling at h
  split at h
  · obtain ⟨g', hg, h⟩ := eq_ok_of_bind h
    obtain ⟨rfl, rfl⟩ := Prod.mk.inj (Except.ok.inj h)
    have hgiven : ((a.get? 1 signatureParameter).getD .null).Accepted v :=
      accepted_getD (fun _ => ha.get?) rfl
    exact ⟨accepted_getD (fun _ => ha.get?) rfl, accepted_of_normalSignature hgiven hg⟩
  · cases h

end Arguments

theorem accepted_of_itemsOfSource {source : Value} {xs : List Value} (hs : source.Accepted v)
    (h : itemsOfSource source = .ok xs) : ∀ x ∈ xs, x.Accepted v := by
  unfold itemsOfSource at h
  split at h
  case h_1 ys hys =>
    obtain rfl := Except.ok.inj h
    exact hs.element hys
  · cases h

theorem Entries.accepted_of_ofSource {source : Value} {es : List (Value × Value)}
    (hs : source.Accepted v) (h : Entries.ofSource source = .ok es) : Entries.Accepted v es := by
  have hnil : Entries.Accepted v [] := by simp [Entries.Accepted]
  have hinsert := hnil.insertFrom hs
  unfold Entries.ofSource at h
  split at h
  case h_1 fs hfs =>
    obtain rfl := Except.ok.inj h
    rwa [hfs] at hinsert
  · cases h

/-- A container that is made of accepted values is accepted. -/
theorem accepted_of_makeContents {s : ContainerClass} {maker : String} {a : Arguments}
    {d : Contents} {t : Tag} (ha : a.Accepted v) (h : makeContents v s maker a = .ok (d, t)) :
    (d.toValue t).Accepted v := by
  unfold makeContents at h
  split at h
  · cases h
  · cases s with
    | array =>
        obtain ⟨level, -, h⟩ := eq_ok_of_bind h
        obtain ⟨⟨source, g⟩, hfilling, h⟩ := eq_ok_of_bind h
        obtain ⟨xs, hxs, h⟩ := eq_ok_of_bind h
        obtain ⟨rfl, rfl⟩ := Prod.mk.inj (Except.ok.inj h)
        obtain ⟨hsource, hg⟩ := ha.filling hfilling
        exact Contents.accepted_toValue.mpr ⟨accepted_of_itemsOfSource hsource hxs, hg⟩
    | dictionary =>
        obtain ⟨level, -, h⟩ := eq_ok_of_bind h
        obtain ⟨⟨source, g⟩, hfilling, h⟩ := eq_ok_of_bind h
        obtain ⟨es, hes, h⟩ := eq_ok_of_bind h
        obtain ⟨rfl, rfl⟩ := Prod.mk.inj (Except.ok.inj h)
        obtain ⟨hsource, hg⟩ := ha.filling hfilling
        exact Contents.accepted_toValue.mpr ⟨Entries.accepted_of_ofSource hsource hes, hg⟩
    | struct =>
        dsimp only at h
        split at h
        case h_2 => cases h
        case h_1 source hpositional =>
          have hsource : source.Accepted v := ha.1 source (by simp [hpositional])
          split at h
          · simp [throw, throwThe, MonadExceptOf.throw, bind, Except.bind] at h
          · obtain ⟨level, -, h⟩ := eq_ok_of_bind h
            obtain ⟨g, hg, h⟩ := eq_ok_of_bind h
            obtain ⟨xs, hxs, h⟩ := eq_ok_of_bind h
            obtain ⟨rfl, rfl⟩ := Prod.mk.inj (Except.ok.inj h)
            have hgiven : ((a.named? signatureParameter).getD .null).Accepted v :=
              Arguments.accepted_getD (fun _ => ha.named?) rfl
            exact Contents.accepted_toValue.mpr
              ⟨accepted_of_itemsOfSource hsource hxs, accepted_of_normalSignature hgiven hg⟩

namespace Container

theorem accepted_of_make {s : ContainerClass} {derivedName : Option String} {a : Arguments}
    {c : Container} (ha : a.Accepted v) (h : make v s derivedName a = .ok c) :
    c.toValue.Accepted v := by
  obtain ⟨⟨d, t⟩, hmade, h⟩ := eq_ok_of_bind h
  obtain rfl := Except.ok.inj h
  exact accepted_of_makeContents ha hmade

/-- Filling an accepted container anew with accepted values leaves an accepted one behind, also if
it breaks off. -/
theorem accepted_refill {c : Container} {a : Arguments} (hc : c.toValue.Accepted v)
    (ha : a.Accepted v) : (c.refill v a).2.toValue.Accepted v := by
  obtain ⟨hcontents, htag⟩ := Contents.accepted_toValue.mp hc
  unfold refill
  split
  · exact hc
  · split
    · exact hc
    case h_2 source g hfilling =>
      obtain ⟨hsource, hg⟩ := ha.filling hfilling
      split
      case h_1 xs hxs =>
        exact Contents.accepted_toValue.mpr ⟨accepted_of_itemsOfSource hsource hxs, hg⟩
      · exact Contents.accepted_toValue.mpr ⟨by simp [Contents.Accepted], htag⟩
  case h_3 es hes =>
    have hentries : Entries.Accepted v es := by rwa [hes] at hcontents
    split
    · exact hc
    case h_2 source g hfilling =>
      obtain ⟨hsource, hg⟩ := ha.filling hfilling
      have hinsert := hentries.insertFrom hsource
      split
      case h_1 fs hfs =>
        rw [hfs] at hinsert
        exact Contents.accepted_toValue.mpr ⟨hinsert, hg⟩
      case h_2 f fs hfs =>
        rw [hfs] at hinsert
        exact Contents.accepted_toValue.mpr ⟨hinsert, htag⟩

theorem accepted_apply_refill {c : Container} {a : Arguments} (hc : c.toValue.Accepted v)
    (ha : a.Accepted v) : (c.apply v (.refill a)).2.toValue.Accepted v := by
  simp only [apply, refillByMethod]
  split
  · exact accepted_refill hc ha
  · exact hc

end Container

/-! ## What is read is accepted -/

section

variable {α : Type} {P : α → Prop}

theorem Attempt.ensures_lift {e : Except Fault α} (h : ∀ x, e = .ok x → P x) :
    Ensures (Unmarshal.lift e) P := by
  intro f x f' hrun
  exact h x (Prod.mk.inj hrun).1

theorem Attempt.Ensures.insideIteration {a : Attempt α} (h : Ensures a P) :
    Ensures (Unmarshal.insideIteration a) P := by
  intro f x f' hrun
  rw [Unmarshal.insideIteration, ExceptT.run_tryCatch, StateT.run_bind] at hrun
  rcases ha : a.run.run f with ⟨e | y, f₁⟩
  · rw [ha] at hrun
    cases (Prod.mk.inj hrun).1
  · rw [ha] at hrun
    obtain rfl := Except.ok.inj (Prod.mk.inj hrun).1
    exact h f y f₁ ha

end

theorem Value.accepted_of_levelAbove {x y : Value} (h : x.levelAbove = .ok y) :
    y.Accepted v := by
  unfold levelAbove at h
  split at h
  · obtain rfl := Except.ok.inj h
    exact accepted_of_signatures_eq_nil rfl
  · split at h
    · obtain rfl := Except.ok.inj h
      exact accepted_of_signatures_eq_nil rfl
    · cases h

theorem BasicType.accepted_of_valueIn {b : BasicType} {content : Scalar} {y : Value}
    (h : b.valueIn v content = .ok y) : y.Accepted v := by
  cases b with
  | signature =>
      obtain ⟨s, -, h⟩ := eq_ok_of_bind h
      obtain ⟨g, hg, h⟩ := eq_ok_of_bind h
      obtain rfl := Except.ok.inj h
      intro g' hg'
      obtain rfl : g' = g := by simpa [Value.signatures] using hg'
      exact (Signature.accepted_of_check hg).1
  | _ =>
      obtain ⟨i, -, h⟩ := eq_ok_of_bind h
      obtain rfl := Except.ok.inj h
      exact Value.accepted_of_signatures_eq_nil rfl

namespace Unmarshal

mutual

/-- What is read is accepted: the values of signature cells and the signatures of containers, at
any depth. -/
theorem ensures_read : (level : Value) → (item : Item) → level.Accepted v →
    Ensures (read v level item) fun y => y.Accepted v
  | level, .basic type content, _ => by
      simp only [read]
      split
      · exact ensures_lift fun y => BasicType.accepted_of_valueIn
      · exact ensures_throw _
  | level, .array element items, hlevel => by
      simp only [read]
      refine (ensures_true _).bind fun _ _ => ?_
      split
      · refine (ensures_readEntries items).bind fun entries hentries => ?_
        refine ensures_lift fun y hy => ?_
        obtain ⟨⟨d, t⟩, hmade, hy⟩ := eq_ok_of_bind hy
        obtain rfl := Except.ok.inj hy
        refine accepted_of_makeContents ⟨?_, ?_⟩ hmade
        · simpa using Value.accepted_list hentries
        · simpa using ⟨Value.accepted_of_signatures_eq_nil rfl, hlevel⟩
      · refine (ensures_true _).bind fun level _ => ?_
        refine (ensures_lift (P := fun g => g.Accepted v) ?_).bind fun g hg => ?_
        · exact fun g hg => (Signature.accepted_of_check hg).1
        refine (ensures_readEach items).bind fun ys hys => ensures_pure ?_
        exact Contents.accepted_toValue (d := .array ys).mpr ⟨hys, by simpa using hg⟩
  | level, .struct items, _ => by
      simp only [read]
      refine (ensures_readEach items).bind fun ys hys => ?_
      refine (ensures_true _).bind fun _ _ => (ensures_true _).bind fun level _ => ?_
      refine (ensures_lift (P := fun g => g.Accepted v) ?_).bind fun g hg => ensures_pure ?_
      · exact fun g hg => (Signature.accepted_of_check hg).1
      exact Contents.accepted_toValue (d := .struct ys).mpr ⟨hys, by simpa using hg⟩
  | level, .dictEntry _, _ => by
      simp only [read]
      exact ensures_throw _
  | level, .variant [], _ => by
      simp only [read]
      exact ensures_throw _
  | level, .variant (item :: _), _ => by
      simp only [read]
      refine (ensures_lift (P := fun y => y.Accepted v) ?_).bind fun level hlevel => ?_
      · exact fun y hy => Value.accepted_of_levelAbove hy
      · exact ensures_read level item hlevel

theorem ensures_readEach : (items : List Item) →
    Ensures (readEach v items) fun ys => ∀ y ∈ ys, y.Accepted v
  | [] => by
      simp only [readEach]
      exact ensures_pure (by simp)
  | item :: rest => by
      simp only [readEach]
      have hzero : (Value.int 0).Accepted v := Value.accepted_of_signatures_eq_nil rfl
      refine (ensures_read _ item hzero).insideIteration.bind fun y hy => ?_
      refine (ensures_readEach rest).bind fun ys hys => ensures_pure ?_
      exact List.forall_mem_cons.mpr ⟨hy, hys⟩

theorem ensures_readEntries : (items : List Item) →
    Ensures (readEntries v items) fun ys => ∀ y ∈ ys, y.Accepted v
  | [] => by
      simp only [readEntries]
      exact ensures_pure (by simp)
  | .dictEntry items :: rest => by
      simp only [readEntries]
      refine (ensures_readEach items).bind fun ys hys => ?_
      refine (ensures_readEntries rest).bind fun pairs hpairs => ensures_pure ?_
      exact List.forall_mem_cons.mpr ⟨Value.accepted_tuple hys, hpairs⟩
  | .basic .. :: _ | .array .. :: _ | .struct _ :: _ | .variant _ :: _ => by
      simp only [readEntries]
      exact ensures_throw _

end

end Unmarshal

namespace Reader

theorem ensures_object {r : Reader} {level : Value} (hlevel : level.Accepted v) :
    Ensures (r.object v level) fun y => y.Accepted v := by
  unfold object
  split
  · exact Unmarshal.ensures_read level _ hlevel
  · exact ensures_throw _

theorem accepted_of_basic {r : Reader} {y : Value} (h : r.basic v = .ok y) : y.Accepted v := by
  unfold basic basicValue at h
  split at h
  · split at h
    · exact BasicType.accepted_of_valueIn h
    · cases h
  · cases h

end Reader

end DBusHost
