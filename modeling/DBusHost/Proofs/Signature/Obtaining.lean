import DBusHost.Proofs.Signature.Accepting
import DBusHost.Proofs.Signature.Strictness

/-!
# Where signatures come from

A signature can be made of a text, cut out of another signature, guessed for a value, carried by
a container that has been made or filled anew, or read from a message.  A program has the
signatures that it has obtained in one of these ways, and it can only give these to the next use.

Whatever it does, all its signatures are accepted: their texts have no nul, and the validator
accepts them.  A text that is refused ends its use in the fault of an invalid signature, and no
signature is made of it.
-/

namespace DBusHost

/-- The text that a value offers where a signature is asked for, unless it is a signature. -/
def Value.signatureText? : Value → Option String
  | text s | path s => some s
  | bytes bs | buffer bs =>
      if bs.all (· < 128) then some (String.ofList (bs.map Text.charOfByte)) else none
  | _ => none

def Arguments.signatures (a : Arguments) : List Signature :=
  Value.listSignatures a.positional ++ Value.listSignatures (a.named.map Prod.snd)

/-- A use of the library that can hand out signatures. -/
inductive SignatureUse where
  /-- Make a signature of a value. -/
  | construct (x : Value)
  /-- Take a signature apart. -/
  | split (g : Signature)
  | guess (x : Value)
  /-- Make a container of a class, or of one that is derived from it. -/
  | make (s : ContainerClass) (derivedName : Option String) (a : Arguments)
  /-- Fill a container anew. -/
  | refill (c : Container) (a : Arguments)
  /-- Look at the signature of a container. -/
  | property (c : Container)
  /-- Look at the signature of a message. -/
  | header (m : Message)
  /-- Read all arguments of a message. -/
  | objects (m : Message)
  /-- Read the argument that a reader stands on. -/
  | object (r : Reader) (level : Value)
  /-- Read the basic argument that a reader stands on. -/
  | basic (r : Reader)

/-- How a use has ended, and the signatures that can be got at through what it has handed out or
changed. -/
structure Yield where
  fault : Option Fault
  signatures : List Signature

/-- The outcome of a use that hands out its result if it has one. -/
def Yield.of {α : Type} (e : Except Fault α) (signatures : α → List Signature) : Yield :=
  match e with
  | .ok x => ⟨none, signatures x⟩
  | .error f => ⟨some f, []⟩

namespace SignatureUse

/-- The signatures that have to be at hand for the use. -/
def given : SignatureUse → List Signature
  | construct x | guess x => x.signatures
  | split g => [g]
  | make _ _ a => a.signatures
  | refill c a => c.toValue.signatures ++ a.signatures
  | property c => c.toValue.signatures
  | header _ | objects _ | basic _ => []
  | object _ level => level.signatures

/-- What comes of the use while native routines fail as a script says. -/
def outcome (v : Validator) (f : Failures) : SignatureUse → Yield
  | construct x => .of (Signature.ofValue v x) fun g => [g]
  | split g => .of (g.pieces.run.run f).1 id
  | guess x => .of (x.guess v) fun g => [g]
  | make s derivedName a => .of (Container.make v s derivedName a) fun c => c.toValue.signatures
  | refill c a =>
      { Yield.of (c.apply v (.refill a)).1 fun _ => [] with
        signatures := (c.apply v (.refill a)).2.toValue.signatures }
  | property c => .of (c.getAttribute (.text signatureParameter)) Value.signatures
  | header m => .of (m.get v .signature) Value.signatures
  | objects m => .of ((m.objects v).run.run f).1 Value.listSignatures
  | object r level => .of ((r.object v level).run.run f).1 Value.signatures
  | basic r => .of (r.basic v) Value.signatures

/-- The outcome of a use that leaves everything as it was: what can be got at through a container
that was to be filled could be got at before. -/
def failed (f : Fault) : SignatureUse → Yield
  | refill c _ => ⟨some f, c.toValue.signatures⟩
  | _ => ⟨some f, []⟩

/-- The arguments suit a class of containers, whatever they give as a signature. -/
def Suits (s : ContainerClass) (a : Arguments) : Prop :=
  a.named? classParameter = none ∧ (∃ level, a.level = .ok level) ∧
    match s with
    | .array | .dictionary => a.fits s.parameters = true
    | .struct => (∃ source, a.positional = [source]) ∧
        ∀ p ∈ a.named, p.1 = signatureParameter ∨ p.1 = levelParameter

/-- The use offers a text as a signature and nothing else is wrong with it.  A struct that is
filled anew looks at no argument. -/
inductive Offers (v : Validator) : SignatureUse → String → Prop
  | construct {x : Value} {s : String} (h : x.signatureText? = some s) :
      Offers v (.construct x) s
  | guess {x : Value} {s : String} (hlevel : x.level = 0) (h : x.guessPlain v = .ok s) :
      Offers v (.guess x) s
  | variant {x : Value} (hlevel : 0 < x.level) : Offers v (.guess x) "v"
  | make {s : ContainerClass} {derivedName : Option String} {a : Arguments} {text : String}
      (hsuits : Suits s a) (h : a.givenSignature.signatureText? = some text) :
      Offers v (.make s derivedName a) text
  | refill {c : Container} {a : Arguments} {form : MethodForm} {text : String}
      (hplain : c.isFixed = false) (hmethod : c.attribute? "__init__" = some (.method form))
      (hfits : a.fits c.contents.containerClass.parameters = true)
      (h : a.givenSignature.signatureText? = some text) : Offers v (.refill c a) text
  | header {m : Message} : Offers v (.header m) (Item.bodyText m.sheet.body)
  | basic {r : Reader} {s : String}
      (h : r.current? = some (.basic BasicType.signature.char (.string s))) :
      Offers v (.basic r) (Text.beforeNul s)

end SignatureUse

/-- The signatures that a program can have after some uses, each with what it had before. -/
inductive Obtained (v : Validator) : List Signature → Prop
  | start : Obtained v []
  | use {known : List Signature} (h : Obtained v known) (u : SignatureUse) (f : Failures)
      (hgiven : ∀ g ∈ u.given, g ∈ known) : Obtained v (known ++ (u.outcome v f).signatures)

variable {v : Validator}

namespace SignatureUse

/-! ## What is obtained is accepted -/

theorem accepted_of {α : Type} {e : Except Fault α} {signatures : α → List Signature}
    (h : ∀ x, e = .ok x → ∀ g ∈ signatures x, g.Accepted v) :
    ∀ g ∈ (Yield.of e signatures).signatures, g.Accepted v := by
  cases e with
  | ok x => exact h x rfl
  | error f => simp [Yield.of]

theorem accepted_arguments {a : Arguments} (h : ∀ g ∈ a.signatures, g.Accepted v) :
    a.Accepted v := by
  constructor
  · intro x hx g hg
    exact h g (List.mem_append_left _ (Value.mem_listSignatures.mpr ⟨x, hx, hg⟩))
  · intro p hp g hg
    have hmem : p.2 ∈ a.named.map Prod.snd := List.mem_map_of_mem hp
    exact h g (List.mem_append_right _ (Value.mem_listSignatures.mpr ⟨p.2, hmem, hg⟩))

theorem accepted_property {c : Container} (hc : c.toValue.Accepted v) :
    c.tag.signatureValue.Accepted v := by
  have htag := (Contents.accepted_toValue.mp hc).2
  unfold Tag.signatureValue
  split
  case h_1 g hg => simpa [Value.Accepted, Value.signatures] using htag g hg
  · exact Value.accepted_of_signatures_eq_nil rfl

/-- A use that is given accepted signatures hands out accepted signatures. -/
theorem accepted_outcome (hv : v.AcceptsTypes) (f : Failures) {u : SignatureUse}
    (hgiven : ∀ g ∈ u.given, g.Accepted v) :
    ∀ g ∈ (u.outcome v f).signatures, g.Accepted v := by
  cases u with
  | construct x =>
      refine accepted_of fun g hg => ?_
      simpa using Signature.accepted_of_ofValue hgiven hg
  | split g =>
      refine accepted_of fun gs hgs p hp => ?_
      have hpiece := g.ensures_pieces f gs _ (Prod.ext hgs rfl) p hp
      exact (hgiven g (by simp [given])).of_isTypeIn hv hpiece
  | guess x =>
      refine accepted_of fun g hg => ?_
      simpa using Value.accepted_of_guess hg
  | make s derivedName a =>
      exact accepted_of fun c hc => Container.accepted_of_make (accepted_arguments hgiven) hc
  | refill c a =>
      simp only [given, List.forall_mem_append] at hgiven
      exact Container.accepted_apply_refill hgiven.1 (accepted_arguments hgiven.2)
  | property c =>
      refine accepted_of fun x hx => ?_
      rw [Container.getAttribute_signature] at hx
      obtain rfl := Except.ok.inj hx
      exact accepted_property hgiven
  | header m =>
      refine accepted_of fun x hx => ?_
      obtain ⟨g, hg, hx⟩ := eq_ok_of_bind hx
      obtain rfl := Except.ok.inj hx
      simpa [Value.signatures] using (Signature.accepted_of_check hg).1
  | objects m =>
      refine accepted_of fun ys hys g hg => ?_
      obtain ⟨y, hy, hg⟩ := Value.mem_listSignatures.mp hg
      exact Unmarshal.ensures_readEach _ f ys _ (Prod.ext hys rfl) y hy g hg
  | object r level =>
      refine accepted_of fun y hy => ?_
      exact Reader.ensures_object hgiven f y _ (Prod.ext hy rfl)
  | basic r => exact accepted_of fun y hy => Reader.accepted_of_basic hy

/-- All signatures that a program can have are accepted. -/
theorem accepted_of_obtained (hv : v.AcceptsTypes) {known : List Signature}
    (h : Obtained v known) : ∀ g ∈ known, g.Accepted v := by
  induction h with
  | start => simp
  | use _ u f hgiven ih =>
      refine List.forall_mem_append.mpr ⟨ih, ?_⟩
      exact accepted_outcome hv f fun g hg => ih g (hgiven g hg)

/-! ## What is refused -/

theorem ofValue_of_refuses {x : Value} {s : String} (h : x.signatureText? = some s)
    (hs : v.Refuses s) : ∃ f, Signature.ofValue v x = .error f ∧ f.IsInvalidSignature := by
  cases x with
  | text | path =>
      obtain rfl := Option.some.inj h
      exact Signature.check_of_refuses hs
  | bytes bs | buffer bs =>
      obtain ⟨hascii, h⟩ := Option.ite_none_right_eq_some.mp h
      obtain rfl := Option.some.inj h
      simpa [Signature.ofValue, Signature.ofValue.ofBytes, hascii] using
        Signature.ofText_of_refuses hs
  | _ => cases h

theorem normalSignature_of_refuses {x : Value} {s : String} (h : x.signatureText? = some s)
    (hs : v.Refuses s) : ∃ f, normalSignature v x = .error f ∧ f.IsInvalidSignature := by
  obtain ⟨f, hf, hkind⟩ := ofValue_of_refuses h hs
  refine ⟨f, ?_, hkind⟩
  unfold normalSignature
  split
  · cases h
  · rw [hf]
    rfl

variable {a : Arguments} {text : String}

theorem filling_of_refuses {s : ContainerClass} (hfits : a.fits s.parameters = true)
    (h : a.givenSignature.signatureText? = some text) (hs : v.Refuses text) :
    ∃ f, a.filling v s = .error f ∧ f.IsInvalidSignature := by
  obtain ⟨f, hf, hkind⟩ := normalSignature_of_refuses h hs
  rw [Arguments.givenSignature] at hf
  exact ⟨f, by simp [Arguments.filling, hfits, hf, bind, Except.bind], hkind⟩

/-- Arguments that suit a class make no container of it if the signature is refused. -/
theorem makeContents_of_refuses {s : ContainerClass} (maker : String) (hsuits : Suits s a)
    (h : a.givenSignature.signatureText? = some text) (hs : v.Refuses text) :
    ∃ f, makeContents v s maker a = .error f ∧ f.IsInvalidSignature := by
  obtain ⟨hclass, ⟨level, hlevel⟩, hrest⟩ := hsuits
  unfold makeContents
  rw [if_neg (by simp [hclass])]
  cases s with
  | array | dictionary =>
      obtain ⟨f, hf, hkind⟩ := filling_of_refuses hrest h hs
      exact ⟨f, by simp [hlevel, hf, bind, Except.bind], hkind⟩
  | struct =>
      obtain ⟨⟨source, hpositional⟩, hnamed⟩ := hrest
      have hgiven : a.givenSignature = (a.named? signatureParameter).getD .null := by
        simp [Arguments.givenSignature, Arguments.get?, hpositional]
      obtain ⟨f, hf, hkind⟩ := normalSignature_of_refuses h hs
      rw [hgiven] at hf
      have hknown : (a.named.map Prod.fst).filter
          (fun n => n != signatureParameter && n != levelParameter) = [] := by
        simp only [List.filter_eq_nil_iff, List.mem_map]
        rintro n ⟨p, hp, rfl⟩
        obtain hp | hp := hnamed p hp <;> simp [hp]
      exact ⟨f, by simp [hpositional, hknown, hlevel, hf, bind, Except.bind], hkind⟩

theorem make_of_refuses {s : ContainerClass} {derivedName : Option String} (hsuits : Suits s a)
    (h : a.givenSignature.signatureText? = some text) (hs : v.Refuses text) :
    ∃ f, Container.make v s derivedName a = .error f ∧ f.IsInvalidSignature := by
  obtain ⟨f, hf, hkind⟩ := makeContents_of_refuses (derivedName.getD s.name) hsuits h hs
  exact ⟨f, by simp [Container.make, hf, bind, Except.bind], hkind⟩

theorem refill_of_refuses {c : Container} {form : MethodForm} (hplain : c.isFixed = false)
    (hmethod : c.attribute? "__init__" = some (.method form))
    (hfits : a.fits c.contents.containerClass.parameters = true)
    (h : a.givenSignature.signatureText? = some text) (hs : v.Refuses text) :
    ∃ f, c.apply v (.refill a) = (.error f, c) ∧ f.IsInvalidSignature := by
  obtain ⟨f, hf, hkind⟩ := filling_of_refuses hfits h hs
  refine ⟨f, ?_, hkind⟩
  simp only [Container.apply, Container.refillByMethod, hmethod]
  unfold Container.refill
  cases hd : c.contents with
  | struct => simp [Container.isFixed, hd] at hplain
  | array xs | dictionary es =>
      rw [hd] at hf
      simp only [Contents.containerClass] at hf
      rw [hf]
      rfl

/-- A text that is refused ends its use in the fault of an invalid signature. -/
theorem failed_of_refuses (f : Failures) {u : SignatureUse} {s : String} (h : u.Offers v s)
    (hs : v.Refuses s) :
    ∃ fault, u.outcome v f = u.failed fault ∧ fault.IsInvalidSignature := by
  cases h with
  | construct h =>
      obtain ⟨fault, hfault, hkind⟩ := ofValue_of_refuses h hs
      exact ⟨fault, by rw [outcome, hfault]; rfl, hkind⟩
  | guess hlevel h =>
      obtain ⟨fault, hfault, hkind⟩ := Signature.ofText_of_refuses hs
      refine ⟨fault, ?_, hkind⟩
      simp [outcome, failed, Value.guess, Value.guessAt, hlevel, h, hfault, Yield.of]
  | variant hlevel =>
      obtain ⟨fault, hfault, hkind⟩ := Signature.ofText_of_refuses hs
      refine ⟨fault, ?_, hkind⟩
      simp [outcome, failed, Value.guess, Value.guessAt, hlevel, hfault, Yield.of]
  | make hsuits h =>
      obtain ⟨fault, hfault, hkind⟩ := make_of_refuses hsuits h hs
      exact ⟨fault, by rw [outcome, hfault]; rfl, hkind⟩
  | refill hplain hmethod hfits h =>
      obtain ⟨fault, hfault, hkind⟩ := refill_of_refuses hplain hmethod hfits h hs
      exact ⟨fault, by rw [outcome, hfault]; rfl, hkind⟩
  | header =>
      obtain ⟨fault, hfault, hkind⟩ := Signature.ofText_of_refuses hs
      refine ⟨fault, ?_, hkind⟩
      rw [outcome, Message.get, Message.signature, hfault]
      rfl
  | @basic r s h =>
      obtain ⟨fault, hfault, hkind⟩ := Signature.ofText_of_refuses hs
      refine ⟨fault, ?_, hkind⟩
      have hvalue : r.basic v = .error fault := by
        simp only [Reader.basic, h, basicValue, BasicType.ofChar?_char, BasicType.valueIn,
          BasicType.textIn, bind, Except.bind, hfault]
      rw [outcome, hvalue]
      rfl

theorem outcome_of_defers {α : Type} {e e' : Except Fault α} (h : Defers e e')
    (signatures : α → List Signature) : Yield.of e signatures = .of e' signatures ∨
      ∃ f, Yield.of e signatures = ⟨some f, []⟩ ∧ f.IsInvalidSignature := by
  obtain rfl | ⟨f, rfl, hkind⟩ := h
  · exact .inl rfl
  · exact .inr ⟨f, rfl, hkind⟩

/-- With a stricter validator a use goes as with the other one, or it ends in the fault of an
invalid signature. -/
theorem outcome_of_stricter {v' : Validator} (h : v.StricterThan v') (u : SignatureUse)
    (f : Failures) : u.outcome v f = u.outcome v' f ∨
      ∃ fault, u.outcome v f = u.failed fault ∧ fault.IsInvalidSignature := by
  cases u with
  | construct x => exact outcome_of_defers (Signature.defers_ofValue h x) _
  | guess x => exact outcome_of_defers (Value.defers_guess h x) _
  | make s derivedName a => exact outcome_of_defers (Container.defers_make h s derivedName a) _
  | split g => exact .inl rfl
  | property c => exact .inl rfl
  | refill c a =>
      obtain heq | ⟨fault, hfault, hkind⟩ := c.refill_of_stricter h a
      · exact .inl (by rw [outcome, outcome, heq])
      · exact .inr ⟨fault, by rw [outcome, hfault]; rfl, hkind⟩
  | header m =>
      exact outcome_of_defers ((Signature.defers_ofText h _).map _) _
  | objects m =>
      exact outcome_of_defers ((Unmarshal.defers_readEach h m.sheet.body).result f) _
  | object r level => exact outcome_of_defers ((r.defers_object h level).result f) _
  | basic r => exact outcome_of_defers (r.defers_basic h) _

/-- If the validator accepts the complete types of what it accepts, then all signatures that a
program can have are accepted, in whatever way it has obtained them.  A text that is refused, by
the validator or for a nul, ends its use in the fault of an invalid signature; nothing can be got
at then but what could be before.  And wherever it makes a difference that the validator refuses
more texts than another one, the use ends so. -/
theorem obtained_validated (hv : v.AcceptsTypes) :
    (∀ known, Obtained v known →
      ∀ g ∈ known, Text.hasNul g.text = false ∧ v.sequence g.text = .valid) ∧
    (∀ (u : SignatureUse) (f : Failures) (s : String), u.Offers v s → v.Refuses s →
      ∃ fault, u.outcome v f = u.failed fault ∧ fault.kind = .busInvalidSignature) ∧
    ∀ (u : SignatureUse) (f : Failures) (v' : Validator), v.StricterThan v' →
      u.outcome v f = u.outcome v' f ∨
        ∃ fault, u.outcome v f = u.failed fault ∧ fault.kind = .busInvalidSignature :=
  ⟨fun _ h => accepted_of_obtained hv h, fun _ f _ h hs => failed_of_refuses f h hs,
    fun u f _ h => outcome_of_stricter h u f⟩

/-- A signature is taken apart, a text with a nul is refused, and so is one that another validator
would accept. -/
theorem obtained_validated_split :
    (∀ g ∈ [(⟨"ia\x7bsv\x7d"⟩ : Signature), ⟨"i"⟩, ⟨"a\x7bsv\x7d"⟩],
      Text.hasNul g.text = false ∧ Validator.ofGrammar.sequence g.text = .valid) ∧
    (∃ fault, (construct (.text "i\x00")).outcome .ofGrammar [] = ⟨some fault, []⟩ ∧
      fault.kind = .busInvalidSignature) ∧
    ∃ fault, (construct (.text "(")).outcome .ofGrammar [] = ⟨some fault, []⟩ ∧
      fault.kind = .busInvalidSignature := by
  obtain ⟨haccepted, hrefused, hstricter⟩ :=
    obtained_validated Validator.exact_ofGrammar.acceptsTypes
  have hfirst : Obtained .ofGrammar [⟨"ia\x7bsv\x7d"⟩] :=
    Obtained.start.use (construct (.text "ia\x7bsv\x7d")) [] (by simp [given, Value.signatures])
  have hsecond : Obtained .ofGrammar [⟨"ia\x7bsv\x7d"⟩, ⟨"i"⟩, ⟨"a\x7bsv\x7d"⟩] :=
    hfirst.use (split ⟨"ia\x7bsv\x7d"⟩) [] (by simp [given])
  refine ⟨haccepted _ hsecond, ?_, ?_⟩
  · exact hrefused _ [] "i\x00" (.construct rfl) (.inl (by decide))
  · have hlenient : Validator.ofGrammar.StricterThan (.ofRefusals [] []) := fun _ _ => rfl
    obtain heq | hfails := hstricter (construct (.text "(")) [] _ hlenient
    · cases congrArg Yield.fault heq
    · exact hfails

end SignatureUse

end DBusHost
