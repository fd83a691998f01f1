import DBusHost.Proofs.Signature.Guessing
import DBusHost.Proofs.Unmarshal.Homogeneous
import DBusHost.Proofs.Unmarshal.Return
import DBusHost.Proofs.Unmarshal.RoundTrip

/-!
# Appending as the guessed type

A homogeneous value fits the type that is guessed for it: the guess is one type, the value conforms
to it, and its normal form as this type is its decoded form.  A collection fits because its first
items fit their types and all others are guessed to be of the same types, and a value with a level
fits a variant because it fits its type when the level is left out of account.

So a homogeneous value can be appended without a signature, and is read back in its decoded form.
-/

namespace DBusHost

open SigType

namespace Value

/-- The value fits the type that is guessed for it, the variants around it left out of account. -/
structure FitsPlain (v : Validator) (t : SigType) (x : Value) : Prop where
  guess : x.guessPlain v = .ok t.text
  valid : Valid [t]
  conforms : Conforms v t x
  normal : Normal v x.level t x (x.decoded v)

/-- The value fits the type that is guessed for it. -/
structure Fits (v : Validator) (t : SigType) (x : Value) : Prop where
  guess : x.guess v = .ok ⟨t.text⟩
  valid : Valid [t]
  conforms : Conforms v t x
  normal : Normal v 0 t x (x.decoded v)

section

variable {v : Validator} {x : Value} {t : SigType}

/-- A value with a level fits a variant, and one without fits as it is. -/
theorem FitsPlain.fits (hv : v.Exact) (h : FitsPlain v t x) : ∃ u, Fits v u x := by
  have hread := readTypes?_text t h.valid
  have htext := Signature.ofText_text hv h.valid
  by_cases hlevel : x.level = 0
  · refine ⟨t, ?_, h.valid, h.conforms, hlevel ▸ h.normal⟩
    simp only [Value.guess, guessAt, hlevel, Nat.lt_irrefl, if_false, h.guess, htext]
  · obtain ⟨hnul, hvalid, -⟩ := Signature.check_eq_ok_iff.mp htext
    have hcount : 0 + max x.level 1 = x.level := by omega
    refine ⟨.variant, ?_, valid_variant, .variant h.guess hnul hvalid hread h.conforms,
      .variant h.guess hread ?_⟩
    · have hguess : x.guess v = Signature.ofText v "v" := if_pos (Nat.pos_of_ne_zero hlevel)
      have hname : SigType.variant.text = "v" := by decide
      rw [hguess, ← hname, Signature.ofText_text hv valid_variant]
    · rw [hcount]
      exact h.normal

theorem Fits.unique {u : SigType} {y : Value} (h : Fits v t x) (h' : Fits v u y)
    (hguess : x.guess v = y.guess v) : t = u := by
  have htext : t.text = u.text := by
    simpa [h.guess, h'.guess] using hguess
  have hread := readTypes?_text t h.valid
  rw [htext, readTypes?_text u h'.valid] at hread
  simpa using hread.symm

/-- Values that are guessed alike fit the type that one of them fits. -/
theorem Fits.of_guessedAlike {xs : List Value} (halike : GuessedAlike v xs)
    (hxs : ∀ y ∈ xs, ∃ u, Fits v u y) (hx : x ∈ xs) (h : Fits v t x) : ∀ y ∈ xs, Fits v t y := by
  intro y hy
  obtain ⟨u, hu⟩ := hxs y hy
  exact h.unique hu (halike x hx y hy) ▸ hu

theorem exists_fits {xs : List Value} (h : ∀ y ∈ xs, ∃ u, Fits v u y) :
    ∃ ts, List.Forall₂ (Fits v) ts xs := by
  induction xs with
  | nil => exact ⟨[], .nil⟩
  | cons y xs ih =>
      obtain ⟨u, hu⟩ := h y (by simp)
      obtain ⟨ts, hts⟩ := ih fun z hz => h z (by simp [hz])
      exact ⟨u :: ts, .cons hu hts⟩

theorem guessAll_of_fits {ts : List SigType} {xs : List Value}
    (h : List.Forall₂ (Fits v) ts xs) : guessAll v xs = .ok (listText ts) := by
  induction h with
  | nil => rfl
  | @cons t y ts xs hy hxs ih =>
      have hfirst : guessAt v y.level (guessPlain v y) = .ok ⟨t.text⟩ := hy.guess
      have hrest : guessEach v xs = .ok (listText ts) := ih
      have htext : t.text ++ listText ts = listText (t :: ts) := by
        rw [← listText_singleton, ← listText_append, List.singleton_append]
      simp [guessAll, guessEach, hfirst, hrest, bind, Except.bind, pure, Except.pure, htext]

theorem guessFields_of_fits {ts : List SigType} {y : Value} {ys : List Value}
    (h : List.Forall₂ (Fits v) ts (y :: ys)) :
    guessFields v (y :: ys) = .ok (SigType.struct ts).text := by
  have hall : guessEach v (y :: ys) = .ok (listText ts) := guessAll_of_fits h
  obtain ⟨first, hfirst, hrest⟩ := eq_ok_of_bind hall
  obtain ⟨rest, hrest, htext⟩ := eq_ok_of_bind hrest
  simp only [guessFields, hfirst, hrest, bind, Except.bind, pure, Except.pure, ← struct_text,
    ← Except.ok.inj htext, String.append_assoc]

theorem guessedFor_of_fits {ts : List SigType} {xs : List Value}
    (h : List.Forall₂ (Fits v) ts xs) : guessedFor v xs = some ⟨listText ts⟩ := by
  rw [guessedFor, guessAll_of_fits h]
  rfl

theorem hasFields_of_fits {ts : List SigType} {xs : List Value}
    (h : List.Forall₂ (Fits v) ts xs) : listHasFields ts = true := by
  induction h with
  | nil => rfl
  | cons hy _ ih =>
      have hfirst := hy.valid.nonempty
      simp only [listHasFields, Bool.and_true] at hfirst ⊢
      simp [hfirst, ih]

end

/-! ## Basic values and bytes -/

section

variable {v : Validator} {x : Value}

theorem fitsPlain_basic {b : BasicType} (hx : x.sequence? = none) (hentries : x.entries? = none)
    (hguess : x.guessPlain v = .ok (SigType.basic b).text) (hadmits : b.Admits v x)
    (hnormal : b.Normal v x x) : FitsPlain v (.basic b) x := by
  refine ⟨hguess, valid_basic b, .basic hadmits, ?_⟩
  rw [decoded_eq_self hx hentries]
  exact .basic hnormal

theorem normalAll_map {f : Value → Value} {ts : List SigType} {xs : List Value}
    (h : List.Forall₂ (fun t y => Normal v 0 t y (f y)) ts xs) : NormalAll v ts xs (xs.map f) := by
  induction h with
  | nil => exact .nil
  | cons hy _ ih => exact .cons hy ih

theorem normalAll_replicate {f : Value → Value} {t : SigType} {xs : List Value}
    (h : ∀ y ∈ xs, Normal v 0 t y (f y)) :
    NormalAll v (List.replicate xs.length t) xs (xs.map f) := by
  induction xs with
  | nil => exact .nil
  | cons y xs ih => exact .cons (h y (by simp)) (ih fun z hz => h z (by simp [hz]))

theorem fitsPlain_bytes {bs : List UInt8} (hx : x.bytes? = some bs) :
    FitsPlain v (.array (.basic .byte)) x := by
  have hsequence : x.sequence? = some (bs.map ofByte) := by
    cases x <;> simp_all [bytes?, sequence?, items?]
  have hlevel : x.level = 0 := by cases x <;> first | rfl | simp [bytes?] at hx
  have hdecoded : x.decoded v =
      .array ((bs.map ofByte).map id) ⟨some ⟨(SigType.basic .byte).text⟩, .count 0⟩ := by
    cases x <;> simp only [bytes?, reduceCtorEq, Option.some.injEq] at hx <;> subst hx <;>
      simp only [decoded, List.map_id] <;> rfl
  have hbyte : ∀ y ∈ bs.map ofByte, ∃ b : UInt8, y = ofByte b := fun y hy =>
    (List.mem_map.mp hy).imp fun b hb => hb.2.symm
  refine ⟨?_, by constructor <;> decide, .array hsequence fun y hy => ?_, ?_⟩
  · cases x <;> first | rfl | simp [bytes?] at hx
  · obtain ⟨b, rfl⟩ := hbyte y hy
    have hlt := b.toNat_lt
    exact .basic ⟨b.toNat, rfl, by omega, by omega⟩
  · rw [hdecoded, hlevel]
    refine .array hsequence (normalAll_replicate fun y hy => ?_)
    obtain ⟨b, rfl⟩ := hbyte y hy
    exact .basic ⟨b.toNat, rfl, rfl⟩

end

/-! ## Collections -/

section

variable {v : Validator} {x : Value}

theorem guessPlain_list {xs : List Value} (hx : x.listItems? = some xs) (hbare : x.Bare) :
    x.guessPlain v = guessElement v xs := by
  cases x <;> simp only [listItems?, reduceCtorEq, Option.some.injEq] at hx <;> subst hx
  · rfl
  · simp only [guessPlain, hbare _ rfl]

theorem guessPlain_tuple {xs : List Value} (hx : x.tupleItems? = some xs) (hbare : x.Bare) :
    x.guessPlain v = guessFields v xs := by
  cases x <;> simp only [tupleItems?, reduceCtorEq, Option.some.injEq] at hx <;> subst hx
  · rfl
  · simp only [guessPlain, hbare _ rfl]

theorem guessPlain_map {es : List (Value × Value)} (hx : x.entries? = some es) (hbare : x.Bare) :
    x.guessPlain v = guessEntry v es := by
  cases x <;> simp only [entries?, reduceCtorEq, Option.some.injEq] at hx <;> subst hx
  · rfl
  · simp only [guessPlain, hbare _ rfl]

/-- A type whose text is guessed and accepted is valid. -/
theorem valid_of_guesses {t : SigType} (hv : v.Exact) (hguess : x.Guesses v)
    (ht : x.guessPlain v = .ok t.text) (hfields : t.hasFields = true) : Valid [t] := by
  obtain ⟨s, g, hplain, hg⟩ := hguess
  obtain rfl : t.text = s := Except.ok.inj (ht.symm.trans hplain)
  refine Signature.valid_of_readTypes? hv hg ?_
  rw [← listText_singleton]
  exact readTypes?_listText (by simpa [listHasFields] using hfields)

theorem Fits.hasFields {t : SigType} (h : Fits v t x) : t.hasFields = true := by
  simpa [listHasFields] using h.valid.nonempty

theorem fitsPlain_list (hv : v.Exact) {xs : List Value} (hx : x.listItems? = some xs)
    (hbare : x.Bare) (hguess : x.Guesses v) (halike : GuessedAlike v xs)
    (h : ∀ y ∈ xs, ∃ u, Fits v u y) : ∃ t, FitsPlain v t x := by
  have hplain := guessPlain_list (v := v) hx hbare
  have hsequence : x.sequence? = some xs := by
    cases x <;> simp_all [listItems?, sequence?, items?]
  cases xs with
  | nil =>
      obtain ⟨s, g, hs, -⟩ := hguess
      simp [hplain, guessElement] at hs
  | cons y ys =>
      obtain ⟨u, hu⟩ := h y (by simp)
      have hall := hu.of_guessedAlike halike h (by simp)
      have htext : x.guessPlain v = .ok (SigType.array u).text := by
        have hfirst : guessAt v y.level (guessPlain v y) = .ok ⟨u.text⟩ := hu.guess
        simp [hplain, guessElement, hfirst, bind, Except.bind, pure, Except.pure, array_text]
      refine ⟨.array u, htext, valid_of_guesses hv hguess htext hu.hasFields,
        .array hsequence fun z hz => (hall z hz).conforms, ?_⟩
      have hcarried : guessedFor v ((y :: ys).take 1) = some ⟨u.text⟩ := by
        rw [← listText_singleton]
        exact guessedFor_of_fits (.cons hu .nil)
      rw [decoded_list hx, hcarried]
      exact .array hsequence (normalAll_replicate fun z hz => (hall z hz).normal)

theorem fitsPlain_tuple (hv : v.Exact) {xs : List Value} (hx : x.tupleItems? = some xs)
    (hbare : x.Bare) (hguess : x.Guesses v) (h : ∀ y ∈ xs, ∃ u, Fits v u y) :
    ∃ t, FitsPlain v t x := by
  have hplain := guessPlain_tuple (v := v) hx hbare
  have hitems := items?_of_tupleItems? hx
  obtain ⟨ts, hts⟩ := exists_fits h
  have htext : x.guessPlain v = .ok (SigType.struct ts).text := by
    cases xs with
    | nil =>
        obtain ⟨s, g, hs, -⟩ := hguess
        simp [hplain, guessFields] at hs
    | cons y ys => rw [hplain, guessFields_of_fits hts]
  have hfields : (SigType.struct ts).hasFields = true := by
    have hne : ts ≠ [] := by
      rintro rfl
      cases hts
      obtain ⟨s, g, hs, -⟩ := hguess
      simp [hplain, guessFields] at hs
    simp [SigType.hasFields, hasFields_of_fits hts, hne]
  refine ⟨.struct ts, htext, valid_of_guesses hv hguess htext hfields,
    .struct hitems (hts.imp fun _ _ hy => hy.conforms), ?_⟩
  rw [decoded_tuple hx, guessedFor_of_fits hts]
  exact .struct hitems (normalAll_map (hts.imp fun _ _ hy => hy.normal))

/-- A value whose normal form is basic is no collection. -/
theorem decoded_eq_self_of_normal {b : BasicType} (h : b.Normal v x (x.decoded v)) :
    x.decoded v = x ∧ x.bytesRead = x := by
  have hx : x.sequence? = none ∧ x.entries? = none := by
    cases b <;> simp only [BasicType.Normal] at h <;> cases x <;>
      simp_all [decoded, sequence?, items?, bytes?, entries?]
  exact ⟨decoded_eq_self hx.1 hx.2, bytesRead_eq_self hx.1 hx.2⟩

theorem Fits.decoded_eq_self {b : BasicType} (h : Fits v (.basic b) x) :
    x.decoded v = x ∧ x.bytesRead = x := by
  cases h.normal with
  | basic hb => exact decoded_eq_self_of_normal hb

theorem guessEntry_of_fits {e : Value × Value} {es : List (Value × Value)} {t u : SigType}
    (hkey : Fits v t e.1) (hvalue : Fits v u e.2) :
    guessEntry v (e :: es) = .ok ("a\x7b" ++ listText [t, u] ++ "\x7d") := by
  have hfirst : guessAt v e.1.level (guessPlain v e.1) = .ok ⟨t.text⟩ := hkey.guess
  have hsecond : guessAt v e.2.level (guessPlain v e.2) = .ok ⟨u.text⟩ := hvalue.guess
  have htext : listText [t, u] = t.text ++ u.text := by
    rw [← listText_singleton, ← listText_singleton, ← listText_append, List.singleton_append]
  simp only [guessEntry, hfirst, hsecond, bind, Except.bind, pure, Except.pure, htext,
    String.append_assoc]

/-- The keys of a map fit a basic type, since what is guessed for the map is accepted. -/
theorem exists_basic_of_guesses (hv : v.Exact) {es : List (Value × Value)}
    (hx : x.entries? = some es) (hbare : x.Bare) (hguess : x.Guesses v)
    (hkeys : GuessedAlike v (es.map Prod.fst)) (hvalues : GuessedAlike v (es.map Prod.snd))
    (hkey : ∀ e ∈ es, ∃ t, Fits v t e.1) (hvalue : ∀ e ∈ es, ∃ t, Fits v t e.2) :
    ∃ k w, x.guessPlain v = .ok (SigType.dict k w).text ∧ Valid [.dict k w] ∧
      guessedFor v (firstEntry es) = some ⟨listText [.basic k, w]⟩ ∧
      (∀ e ∈ es, Fits v (.basic k) e.1) ∧ ∀ e ∈ es, Fits v w e.2 := by
  have hplain := guessPlain_map (v := v) hx hbare
  obtain ⟨s, g, hs, hg⟩ := id hguess
  rw [hplain] at hs
  cases es with
  | nil => simp [guessEntry] at hs
  | cons e es =>
      obtain ⟨t, ht⟩ := hkey e (by simp)
      obtain ⟨w, hw⟩ := hvalue e (by simp)
      have hfits : List.Forall₂ (Fits v) [t, w] [e.1, e.2] := .cons ht (.cons hw .nil)
      obtain rfl := Except.ok.inj ((guessEntry_of_fits ht hw).symm.trans hs)
      have htypes := (Signature.accepted_of_check hg).1.isTypes hv
      rw [(Signature.accepted_of_check hg).2] at htypes
      obtain ⟨k, w', heq⟩ := entry_of_isTypes (hasFields_of_fits hfits) htypes
      obtain ⟨rfl, rfl⟩ : t = .basic k ∧ w = w' := by simpa using heq
      have htext : x.guessPlain v = .ok (SigType.dict k w).text := by
        rw [hplain, guessEntry_of_fits ht hw, dict_text]
      have hfields : (SigType.dict k w).hasFields = true := hw.hasFields
      have hkeysFit := ht.of_guessedAlike hkeys (List.forall_mem_map.mpr hkey) (by simp)
      have hvaluesFit := hw.of_guessedAlike hvalues (List.forall_mem_map.mpr hvalue) (by simp)
      exact ⟨k, w, htext, valid_of_guesses hv hguess htext hfields, guessedFor_of_fits hfits,
        List.forall_mem_map.mp hkeysFit, List.forall_mem_map.mp hvaluesFit⟩

theorem normalEntries_map {k : BasicType} {w : SigType} {es : List (Value × Value)}
    (hkeys : ∀ e ∈ es, Fits v (.basic k) e.1) (hvalues : ∀ e ∈ es, Fits v w e.2) :
    NormalEntries v k w es (es.map fun e => (e.1.decoded v, e.2.decoded v)) := by
  induction es with
  | nil => exact .nil
  | cons e es ih =>
      have hrest := ih (fun f hf => hkeys f (by simp [hf])) fun f hf => hvalues f (by simp [hf])
      cases (hkeys e (by simp)).normal with
      | basic hkey => exact .cons hkey (hvalues e (by simp)).normal hrest

theorem fitsPlain_map (hv : v.Exact) {es : List (Value × Value)} (hx : x.entries? = some es)
    (hbare : x.Bare) (hguess : x.Guesses v) (hdiffer : es.Pairwise fun e f => f.1.same e.1 = false)
    (hkeys : GuessedAlike v (es.map Prod.fst)) (hvalues : GuessedAlike v (es.map Prod.snd))
    (hkey : ∀ e ∈ es, ∃ t, Fits v t e.1) (hvalue : ∀ e ∈ es, ∃ t, Fits v t e.2) :
    ∃ t, FitsPlain v t x := by
  obtain ⟨k, w, htext, hvalid, hcarried, hkeysFit, hvaluesFit⟩ :=
    exists_basic_of_guesses hv hx hbare hguess hkeys hvalues hkey hvalue
  refine ⟨.dict k w, htext, hvalid,
    .dict hx (fun e he => (hkeysFit e he).conforms) fun e he => (hvaluesFit e he).conforms, ?_⟩
  have hpairs : (es.map fun e => (e.1.decoded v, e.2.decoded v)).Pairwise
      fun f f' => f'.1.same f.1 = false := by
    refine List.pairwise_map.mpr (hdiffer.imp_of_mem fun he hf h => ?_)
    rw [(hkeysFit _ he).decoded_eq_self.1, (hkeysFit _ hf).decoded_eq_self.1]
    exact h
  rw [decoded_map hx, hcarried, ← Entries.ofPairs_eq_self hpairs]
  exact .dict hx (normalEntries_map hkeysFit hvaluesFit)

/-- A typed container is guessed to be of the type that it is the normal form for. -/
theorem guessPlain_of_normal {n : Nat} {t : SigType} {y : Value} (h : Normal v n t x y)
    (hvariant : t ≠ .variant) (hbasic : ∀ b, t ≠ .basic b) :
    y.guessPlain v = .ok t.text ∧ y.level = n := by
  cases h with
  | basic _ => exact absurd rfl (hbasic _)
  | variant _ _ _ => exact absurd rfl hvariant
  | @array n e => exact ⟨by rw [← array_text]; rfl, rfl⟩
  | @struct n ts => exact ⟨by rw [← struct_text]; rfl, rfl⟩
  | @dict n k w => exact ⟨by rw [← dict_text]; rfl, rfl⟩

/-- What a value comes back as has the same level, and the same type is guessed for it. -/
theorem FitsPlain.guess_decoded {t : SigType} (h : FitsPlain v t x) :
    (x.decoded v).guess v = x.guess v := by
  have hvariant := guessed_ne_variant h.guess (readTypes?_text t h.valid)
  cases t with
  | basic b =>
      cases h.normal with
      | basic hb => rw [(decoded_eq_self_of_normal hb).1]
  | variant => exact absurd rfl hvariant
  | _ =>
      obtain ⟨hplain, hlevel⟩ := guessPlain_of_normal h.normal hvariant (by simp)
      simp only [Value.guess, hplain, hlevel, h.guess]

end

/-! ## Homogeneous values -/

namespace Homogeneous

variable {v : Validator} {x : Value}

/-- A homogeneous value fits the type that is guessed for it. -/
theorem exists_fitsPlain (hv : v.Exact) (h : Homogeneous v x) : ∃ t, FitsPlain v t x := by
  induction h with
  | bool b => exact ⟨_, fitsPlain_basic (b := .boolean) rfl rfl rfl trivial rfl⟩
  | @int i h => exact ⟨_, fitsPlain_basic (b := .int32) rfl rfl rfl ⟨i, rfl, h⟩ ⟨i, rfl, rfl⟩⟩
  | @descriptor i h =>
      exact ⟨_, fitsPlain_basic (b := .unixFd) rfl rfl rfl ⟨i, rfl, h⟩ ⟨i, rfl, rfl⟩⟩
  | @double d _ => exact ⟨_, fitsPlain_basic (b := .double) rfl rfl rfl ⟨d, rfl⟩ ⟨d, rfl, rfl⟩⟩
  | @text s _ => exact ⟨_, fitsPlain_basic (b := .string) rfl rfl rfl ⟨s, rfl⟩ ⟨s, rfl, rfl⟩⟩
  | @path s _ => exact ⟨_, fitsPlain_basic (b := .objectPath) rfl rfl rfl ⟨s, rfl⟩ ⟨s, rfl, rfl⟩⟩
  | @signature g _ =>
      exact ⟨_, fitsPlain_basic (b := .signature) rfl rfl rfl trivial ⟨g, rfl, rfl⟩⟩
  | bytes | buffer => exact ⟨_, fitsPlain_bytes rfl⟩
  | list hx hbare hguess halike _ ih =>
      exact fitsPlain_list hv hx hbare hguess halike fun y hy => (ih y hy).elim fun _ h => h.fits hv
  | tuple hx hbare hguess _ ih =>
      exact fitsPlain_tuple hv hx hbare hguess fun y hy => (ih y hy).elim fun _ h => h.fits hv
  | map hx hbare hguess hdiffer hkeys hvalues _ _ ihkey ihvalue =>
      exact fitsPlain_map hv hx hbare hguess hdiffer hkeys hvalues
        (fun e he => (ihkey e he).elim fun _ h => h.fits hv)
        fun e he => (ihvalue e he).elim fun _ h => h.fits hv

theorem exists_fits (hv : v.Exact) (h : Homogeneous v x) : ∃ t, Fits v t x :=
  (h.exists_fitsPlain hv).elim fun _ h => h.fits hv

/-- A homogeneous value comes back as the same value, its bytes read as numbers. -/
theorem same_decoded (hv : v.Exact) (h : Homogeneous v x) :
    (x.decoded v).same x.bytesRead = true := by
  induction h with
  | bool | int | descriptor => exact same_self_of_numeric rfl (by simp)
  | double h => exact same_self_of_numeric rfl (ofDouble_ne_nan h)
  | text | path | signature => exact same_self_of_text rfl
  | bytes bs | buffer bs =>
      have hitems : sameItems ((bs.map ofByte).map id) ((bs.map ofByte).map id) = true :=
        sameItems_map (List.forall_mem_map.mpr fun b _ => same_ofByte b)
      simpa [decoded, bytesRead, same, listItems?] using hitems
  | list hx _ _ _ _ ih =>
      rw [decoded_list hx, same, listItems?_bytesRead hx]
      exact sameItems_map ih
  | tuple hx _ _ _ ih =>
      rw [decoded_tuple hx, same, tupleItems?_bytesRead hx]
      exact sameItems_map ih
  | @map x es hx hbare hguess hdiffer hkeys hvalues hkey hvalue ihkey ihvalue =>
      obtain ⟨k, w, -, -, -, hkeysFit, -⟩ := exists_basic_of_guesses hv hx hbare hguess hkeys
        hvalues (fun e he => (hkey e he).exists_fits hv) fun e he => (hvalue e he).exists_fits hv
      have hself : ∀ e ∈ es, e.1.decoded v = e.1 ∧ e.1.bytesRead = e.1 := fun e he =>
        (hkeysFit e he).decoded_eq_self
      have hsame : ∀ e ∈ es, e.1.same e.1 = true := by
        intro e he
        have hdecoded := ihkey e he
        rwa [(hself e he).1, (hself e he).2] at hdecoded
      have hread : (es.map fun e => (e.1.bytesRead, e.2.bytesRead)) =
          es.map fun e => (e.1, e.2.bytesRead) :=
        List.map_congr_left fun e he => by rw [(hself e he).2]
      rw [decoded_map hx, same, entries?_bytesRead hx, hread]
      simp only [List.length_map, beq_self_eq_true, Bool.true_and]
      refine sameEntries_of_find? (List.forall_mem_map.mpr fun e he => ?_)
      rw [(hself e he).1]
      exact ⟨_, find?_same_of_pairwise hdiffer hsame he bytesRead, ihvalue e he⟩

theorem clean (h : Homogeneous v x) : x.Clean v := by
  induction h with
  | bool | int | descriptor => exact clean_of_integer rfl
  | double => apply clean_of_parts <;> simp [text?, sequence?, items?, bytes?, entries?]
  | text h => exact clean_text h
  | path h => apply clean_of_parts <;> simp [text?, sequence?, items?, bytes?, entries?, h]
  | signature h =>
      apply clean_of_parts <;> simp [text?, sequence?, items?, bytes?, entries?, h.1, h.2]
  | bytes bs | buffer bs =>
      apply clean_of_parts <;> simp [text?, sequence?, items?, bytes?, entries?]
      exact fun b _ => clean_of_integer rfl
  | @list x xs hx _ _ _ _ ih | @tuple x xs hx _ _ _ ih =>
      cases x <;> simp only [listItems?, tupleItems?, reduceCtorEq, Option.some.injEq] at hx <;>
        subst hx <;> apply clean_of_parts <;>
        simp [text?, sequence?, items?, bytes?, entries?] <;> exact ih
  | @map x es hx _ _ _ _ _ _ _ ihkey ihvalue =>
      cases x <;> simp only [entries?, reduceCtorEq, Option.some.injEq] at hx <;>
        subst hx <;> apply clean_of_parts <;>
        simp [text?, sequence?, items?, bytes?, entries?]
      all_goals exact fun k y he => ⟨ihkey (k, y) he, ihvalue (k, y) he⟩

end Homogeneous

end Value

namespace Marshal

variable {v : Validator}

/-- Appending without a signature is appending with the one that is guessed. -/
theorem append_null {x : Value} {s : String} (h : Value.guessAll v (arguments x) = .ok s) :
    append v .null x = append v (.text s) x := by
  rw [append_eq, append_eq]
  simp only [typesFor, h]
  rfl

end Marshal

namespace Message

/-- A homogeneous value is appended, without a signature, to a message that has no arguments.
This succeeds, and the signature of the message is then the one that is guessed for the value.
The one argument is the decoded form of the value, in which all containers carry what is guessed
for their contents and have the level of those that they came from.  The same signature is guessed
for it, and it is the same as the value with its bytes read as numbers. -/
theorem objects_append_guessed {v : Validator} (hv : v.Exact) {x : Value}
    (hx : x.Homogeneous v) {m : Message} (hbody : m.sheet.body = []) (calls : List PenCall) :
    ∃ g d, x.guess v = .ok g ∧
      (Marshal.append v .null (.list [x])).run.run ⟨[], m.sheet, calls⟩ = (.ok (), d) ∧
      ({ m with sheet := d.sheet }).signature v = .ok g ∧
      (({ m with sheet := d.sheet }).objects v).run.run [] = (.ok [x.decoded v], []) ∧
      (x.decoded v).guess v = .ok g ∧ (x.decoded v).same x.bytesRead = true := by
  obtain ⟨u, hu⟩ := hx.exists_fitsPlain hv
  obtain ⟨t, ht⟩ := hu.fits hv
  have hall : List.Forall₂ (Value.Fits v) [t] [x] := .cons ht .nil
  have hguess : Value.guessAll v [x] = .ok (listText [t]) := Value.guessAll_of_fits hall
  have hmade : Signature.ofValue v (.text (listText [t])) = .ok ⟨listText [t]⟩ :=
    Signature.ofText_listText hv ht.valid
  have hread := readTypes?_listText ht.valid.nonempty
  have hclean : (Value.list [x]).Clean v := Value.clean_list (by simpa using hx.clean)
  have hconforms : List.Forall₂ (Conforms v) [t] (Marshal.arguments (.list [x])) :=
    .cons ht.conforms .nil
  have hok := ((Marshal.acceptsIff_append hmade hread (.list [x])).run_eq_ok_iff
    (d := ⟨[], m.sheet, calls⟩) rfl).mpr hconforms
  obtain ⟨d, happend⟩ : ∃ d, (Marshal.append v (.text (listText [t])) (.list [x])).run.run
      ⟨[], m.sheet, calls⟩ = (.ok (), d) := ⟨_, Prod.ext hok rfl⟩
  have hsignature := signature_of_append hv hmade hread ht.valid hbody happend
  obtain ⟨ys, hnormal, hobjects⟩ :=
    exists_normalAll_of_append hv hmade hread ht.valid hclean hbody happend
  obtain rfl : ys = [x.decoded v] := hnormal.unique (.cons ht.normal .nil)
  have hgiven : x.guess v = .ok ⟨listText [t]⟩ := by rw [ht.guess, listText_singleton]
  refine ⟨⟨listText [t]⟩, d, hgiven, ?_, hsignature, hobjects, hu.guess_decoded.trans hgiven,
    hx.same_decoded hv⟩
  rw [Marshal.append_null hguess]
  exact happend

/-- A map whose values are arrays at different levels, and so are all guessed to be variants. -/
theorem objects_append_guessed_levels : ∃ d : Desk,
    Value.Homogeneous .ofGrammar (.map
      [(.text "k", .array [.bytes [7], .bytes []] ⟨none, .count 2⟩),
        (.text "l", .array [.bool true] ⟨none, .flag true⟩)]) ∧
    (Marshal.append .ofGrammar .null (.list [.map
        [(.text "k", .array [.bytes [7], .bytes []] ⟨none, .count 2⟩),
          (.text "l", .array [.bool true] ⟨none, .flag true⟩)]])).run.run ⟨[], .ofBody [], []⟩ =
      (.ok (), d) ∧
    Message.signature .ofGrammar { kind := 1, sheet := d.sheet } = .ok ⟨"a\x7bsv\x7d"⟩ ∧
    (Message.objects .ofGrammar { kind := 1, sheet := d.sheet }).run.run [] =
      (.ok [.dictionary
        [(.text "k", .array
            [.array [.int 7] ⟨some ⟨"y"⟩, .count 0⟩, .array [] ⟨some ⟨"y"⟩, .count 0⟩]
            ⟨some ⟨"ay"⟩, .count 2⟩),
          (.text "l", .array [.bool true] ⟨some ⟨"b"⟩, .count 1⟩)]
        ⟨some ⟨"sv"⟩, .count 0⟩], []) := by
  have hbytes : Value.Homogeneous .ofGrammar (.array [.bytes [7], .bytes []] ⟨none, .count 2⟩) :=
    .list rfl (by simp [Value.Bare, Value.tag?]) ⟨"aay", ⟨"aay"⟩, rfl, by decide +kernel⟩
      (by simp [Value.GuessedAlike]; decide) (by simpa using ⟨.bytes [7], .bytes []⟩)
  have hflag : Value.Homogeneous .ofGrammar (.array [.bool true] ⟨none, .flag true⟩) :=
    .list rfl (by simp [Value.Bare, Value.tag?]) ⟨"ab", ⟨"ab"⟩, rfl, by decide +kernel⟩
      (by simp [Value.GuessedAlike]) (by simpa using .bool true)
  have hx : Value.Homogeneous .ofGrammar (.map
      [(.text "k", .array [.bytes [7], .bytes []] ⟨none, .count 2⟩),
        (.text "l", .array [.bool true] ⟨none, .flag true⟩)]) :=
    .map rfl (by simp [Value.Bare, Value.tag?])
      ⟨"a\x7bsv\x7d", ⟨"a\x7bsv\x7d"⟩, by decide +kernel, by decide +kernel⟩
      (by simp [Value.same, Value.sameLeaf, Value.numeric?, Value.text?])
      (by simp [Value.GuessedAlike]; decide) (by simp [Value.GuessedAlike]; decide)
      (by simpa using ⟨.text (by decide), .text (by decide)⟩) (by simpa using ⟨hbytes, hflag⟩)
  obtain ⟨g, d, hguess, happend, hsignature, hobjects, -, -⟩ :=
    objects_append_guessed Validator.exact_ofGrammar hx (m := { kind := 1 }) rfl []
  obtain rfl : ⟨"a\x7bsv\x7d"⟩ = g := by
    have hgiven : Value.guess .ofGrammar (.map
        [(.text "k", .array [.bytes [7], .bytes []] ⟨none, .count 2⟩),
          (.text "l", .array [.bool true] ⟨none, .flag true⟩)]) = .ok ⟨"a\x7bsv\x7d"⟩ := by
      decide +kernel
    exact Except.ok.inj (hgiven.symm.trans hguess)
  exact ⟨d, hx, happend, hsignature, hobjects⟩

end Message

end DBusHost
