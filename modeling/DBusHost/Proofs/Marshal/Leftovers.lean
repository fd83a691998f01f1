import DBusHost.Message.Basic
import DBusHost.Proofs.Marshal.Encoding
import DBusHost.Proofs.Marshal.Renumbering

/-!
# What a failure leaves behind

Appending writes one value after another, and a value that cannot be written leaves nothing
in the body.  So after a failure the body has the values before the one that failed, each of
them complete.  `StopsAt` tells at which value and why the writing stopped.

The signature and the arguments of a message are read off its body, and a later append depends
on the message by its body only.  Nothing else that the failure left in the sheet shows.
-/

namespace DBusHost

theorem Item.listChars_append (items rest : List Item) :
    listChars (items ++ rest) = listChars items ++ listChars rest := by
  induction items with
  | nil => rfl
  | cons item items ih => simp [listChars, ih]

/-- The arguments of a body that was extended are those from before and the new ones. -/
theorem Unmarshal.readEach_append (v : Validator) (items rest : List Item) :
    readEach v (items ++ rest) = (do
      let xs ← readEach v items
      let ys ← readEach v rest
      return xs ++ ys) := by
  induction items with
  | nil => simp [readEach]
  | cons item items ih => simp [readEach, ih]

namespace Marshal

variable {v : Validator}

/-- Writing values as types from a desk stops with a fault after a number of values: because
the next value cannot be written, or because there is none left, or no type for it. -/
inductive StopsAt (v : Validator) (ts : List SigType) (xs : List Value) (d : Desk) (f : Fault) :
    Nat → Prop
  | value {k : Nat} {t : SigType} {x : Value} {d₁ : Desk} (ht : ts[k]? = some t)
      (hx : xs[k]? = some x)
      (hdone : (writeFields v (ts.take k) .body (xs.take k)).run.run d = (.ok (), d₁))
      (hfails : ((write v t .body x).run.run d₁).1 = .error f) : StopsAt v ts xs d f k
  | tooFew {d₁ : Desk} (hlt : xs.length < ts.length)
      (hdone : (writeFields v (ts.take xs.length) .body xs).run.run d = (.ok (), d₁))
      (hf : f = .tooFewValues) : StopsAt v ts xs d f xs.length
  | tooMany {d₁ : Desk} (hlt : ts.length < xs.length)
      (hdone : (writeFields v ts .body (xs.take ts.length)).run.run d = (.ok (), d₁))
      (hf : f = .tooManyValues) : StopsAt v ts xs d f ts.length

variable {ts : List SigType} {xs : List Value} {d d' d₁ : Desk} {f : Fault} {k : Nat}

theorem run_writeFields_cons {t : SigType} {x : Value}
    (h : (write v t .body x).run.run d = (.ok (), d₁)) :
    (writeFields v (t :: ts) .body (x :: xs)).run.run d =
      (writeFields v ts .body xs).run.run d₁ := by
  rw [writeFields, Writing.run_bind, h]

theorem StopsAt.cons {t : SigType} {x : Value}
    (h : (write v t .body x).run.run d = (.ok (), d₁)) (hstops : StopsAt v ts xs d₁ f k) :
    StopsAt v (t :: ts) (x :: xs) d f (k + 1) := by
  cases hstops with
  | value ht hx hdone hfails =>
      exact .value ht hx ((run_writeFields_cons h).trans hdone) hfails
  | tooFew hlt hdone hf =>
      exact .tooFew (by simpa using hlt) ((run_writeFields_cons h).trans hdone) hf
  | tooMany hlt hdone hf =>
      exact .tooMany (by simpa using hlt) ((run_writeFields_cons h).trans hdone) hf

/-- After a failure the body has the complete items of the values before the one that failed. -/
theorem stopsAt_of_writeFields (h : (writeFields v ts .body xs).run.run d = (.error f, d')) :
    ∃ k items, StopsAt v ts xs d f k ∧ d'.sheet.body = d.sheet.body ++ items ∧
      EncodesAll v (ts.take k) (xs.take k) items := by
  induction xs generalizing ts d with
  | nil =>
      cases ts with
      | nil => cases h
      | cons t ts =>
          cases h
          exact ⟨0, [], .tooFew (by simp) rfl rfl, by simp, .nil⟩
  | cons x xs ih =>
      cases ts with
      | nil =>
          cases h
          exact ⟨0, [], .tooMany (by simp) rfl rfl, by simp, .nil⟩
      | cons t ts =>
          obtain ⟨items, hgrown, hitems⟩ := writesOne (v := v) t x .body d trivial
          rcases hx : (write v t .body x).run.run d with ⟨g | _, d₁⟩
          · rw [writeFields, Writing.run_bind, hx] at h
            cases h
            rw [hx] at hgrown hitems
            obtain rfl : items = [] := hitems
            exact ⟨0, [], .value rfl rfl rfl (by rw [hx]), by simpa using hgrown.body, .nil⟩
          · rw [run_writeFields_cons hx] at h
            rw [hx] at hgrown hitems
            obtain ⟨item, rfl, hitem⟩ := hitems
            obtain ⟨k, rest, hstops, hbody, hrest⟩ := ih h
            refine ⟨k + 1, item :: rest, hstops.cons hx, ?_, .cons hitem hrest⟩
            rw [hbody, hgrown.body]
            simp

/-- Appending stops before the first value if the types cannot be settled, or at some value. -/
inductive AppendStopsAt (v : Validator) (signature x : Value) (d : Desk) (f : Fault) :
    List SigType → Nat → Prop
  | untyped (h : typesFor v signature (arguments x) = .error f) :
      AppendStopsAt v signature x d f [] 0
  | typed {ts : List SigType} {k : Nat} (hts : typesFor v signature (arguments x) = .ok ts)
      (h : StopsAt v ts (arguments x) d f k) : AppendStopsAt v signature x d f ts k

theorem stopsAt_of_append {signature x : Value}
    (h : (append v signature x).run.run d = (.error f, d')) :
    ∃ ts k items, AppendStopsAt v signature x d f ts k ∧
      d'.sheet.body = d.sheet.body ++ items ∧
      EncodesAll v (ts.take k) ((arguments x).take k) items := by
  rw [append_eq] at h
  cases hts : typesFor v signature (arguments x) with
  | error g =>
      rw [hts] at h
      cases h
      exact ⟨[], 0, [], .untyped hts, by simp, .nil⟩
  | ok ts =>
      rw [hts] at h
      obtain ⟨k, items, hstops, hbody, hitems⟩ := stopsAt_of_writeFields h
      exact ⟨ts, k, items, .typed hts hstops, hbody, hitems⟩

end Marshal

namespace Message

open Marshal

/-- When appending to a message fails, the body has the complete items of the values before the
one that failed, and of no other.  The signature and the arguments of the message are those of
before with those of these items.  Whatever is appended next does what it does to a message
with the same body that nothing was opened in before. -/
theorem after_failed_append {v : Validator} {signature x : Value} {m : Message}
    {failures : Failures} {calls : List PenCall} {f : Fault} {d : Desk}
    (h : (append v signature x).run.run ⟨failures, m.sheet, calls⟩ = (.error f, d)) :
    ∃ ts k items, AppendStopsAt v signature x ⟨failures, m.sheet, calls⟩ f ts k ∧
      d.sheet.body = m.sheet.body ++ items ∧
      EncodesAll v (ts.take k) ((arguments x).take k) items ∧
      ({ m with sheet := d.sheet }).signature v = Signature.ofText v
        (Item.bodyText m.sheet.body ++ SigType.listText (ts.take k)) ∧
      ({ m with sheet := d.sheet }).objects v = (do
        let old ← m.objects v
        let new ← Item.objects v items
        return old ++ new) ∧
      ∀ signature' x', (append v signature' x').run.run d =
        (((append v signature' x').run.run ⟨d.failures, .ofBody d.sheet.body, []⟩).1,
          d.after ((append v signature' x').run.run
            ⟨d.failures, .ofBody d.sheet.body, []⟩).2) := by
  obtain ⟨ts, k, items, hstops, hbody, hitems⟩ := stopsAt_of_append h
  refine ⟨ts, k, items, hstops, hbody, hitems, ?_, ?_, fun _ _ => append_eq_after v _ _ d⟩
  · have htext : Item.bodyText d.sheet.body =
        Item.bodyText m.sheet.body ++ SigType.listText (ts.take k) := by
      rw [hbody, Item.bodyText, Item.listChars_append, hitems.listChars, String.ofList_append]
      rfl
    simp only [Message.signature, htext]
  · simp only [Message.objects, Item.objects, hbody]
    exact Unmarshal.readEach_append v m.sheet.body items

/-- The second field of a struct cannot be written, and only the number in front of the struct
is left. -/
theorem after_failed_append_struct : ∃ d : Desk,
    (append .ofGrammar (.text "i(is)") (.list [.int 5, .tuple [.int 1, .int 2]])).run.run
        ⟨[], .ofBody [], []⟩ = (.error (.textExpected 's' "int"), d) ∧
      d.sheet.body.length = 1 ∧
      ∃ ts k, EncodesAll .ofGrammar (List.take k ts)
          (List.take k [.int 5, .tuple [.int 1, .int 2]]) d.sheet.body ∧
        Message.signature .ofGrammar { kind := 1, sheet := d.sheet } =
          Signature.ofText .ofGrammar ("" ++ SigType.listText (ts.take k)) := by
  obtain ⟨⟨r, d⟩, happend⟩ : ∃ p, (append .ofGrammar (.text "i(is)")
      (.list [.int 5, .tuple [.int 1, .int 2]])).run.run ⟨[], .ofBody [], []⟩ = p := ⟨_, rfl⟩
  obtain rfl : r = .error (.textExpected 's' "int") := by
    have hfails : ((append .ofGrammar (.text "i(is)")
        (.list [.int 5, .tuple [.int 1, .int 2]])).run.run ⟨[], .ofBody [], []⟩).1 =
        .error (.textExpected 's' "int") := by decide +kernel
    rwa [happend] at hfails
  have hlength : d.sheet.body.length = 1 := by
    have hone : ((append .ofGrammar (.text "i(is)")
        (.list [.int 5, .tuple [.int 1, .int 2]])).run.run
        ⟨[], .ofBody [], []⟩).2.sheet.body.length = 1 := by decide +kernel
    rwa [happend] at hone
  obtain ⟨ts, k, items, -, hbody, hitems, hsignature, -, -⟩ :=
    after_failed_append (m := { kind := 1 }) happend
  obtain rfl : d.sheet.body = items := hbody
  exact ⟨d, happend, hlength, ts, k, hitems, hsignature⟩

end Message

end DBusHost
