import DBusHost.Proofs.Marshal.Acceptance
import DBusHost.Proofs.Marshal.Offers
import DBusHost.Signature.Cursor

/-!
# Marshalling along a cursor

`Marshal.append` knows the complete types of a signature.  Marshalling can also be done with no
more than a cursor over the text: a loop moves the cursor on, an index counts the values, and the
type code under the cursor says what to do with the next value.  Done that way there are branches
that ought to be dead: a code that is no type, a value behind the last one, an iterator that does
not write or that was not opened in another one.  Whether it ends is not evident either, since a
variant is filled with the value that it was opened for.

This module has marshalling in that form, with a bound on how deep its calls are nested; it has no
result if they are nested deeper.
-/

namespace DBusHost

/-- The basic type that a number stands for. -/
def BasicType.ofCode? (n : Nat) : Option BasicType := all.find? fun t => typeCode t.char == n

/-! ## Iterators that write -/

/-- An iterator over arguments: the place that it is at, whether it was opened in another one,
and whether it writes. -/
structure Pen where
  place : Place
  nested : Bool
  writing : Bool

namespace Pen

/-- The iterator that a message is written with. -/
def top : Pen := ⟨.body, false, true⟩

/-- The iterator that writes into a draft. -/
def into (n : Nat) : Pen := ⟨.draft n, true, true⟩

def appendBasic (v : Validator) (p : Pen) (code : Nat) (x : Value) : Writing Unit := do
  unless p.writing do throw (.misused .writeToReader)
  Writing.appendValue v p.place (Char.ofNat code) x

def openContainer (p : Pen) (k : ContainerKind) (signature : Option String) : Writing Pen := do
  unless p.writing do throw (.misused .writeToReader)
  let n ← Writing.openContainer p.place k signature
  return into n

def close (p : Pen) : Writing Unit := do
  unless p.writing do throw (.misused .writeToReader)
  match p.place, p.nested with
  | .draft n, true => Writing.closeContainer n
  | _, _ => throw (.misused .closeTopLevel)

def abandon (p : Pen) : Writing Unit := do
  unless p.writing do throw (.misused .writeToReader)
  match p.place, p.nested with
  | .draft n, true => Writing.abandonContainer n
  | _, _ => throw (.misused .abandonTopLevel)

/-- Close the container that has been filled, or abandon it if that failed. -/
def finish (p : Pen) : Except Fault Unit → Writing Unit
  | .ok () => p.close
  | .error f => do
    p.abandon
    throw f

end Pen

/-! ## The loops -/

/-- Writing that has no result if its calls are nested too deep. -/
abbrev Guided := ExceptT Fault (StateT Desk Option)

namespace Guided

/-- The calls are nested too deep. -/
def tooDeep : Guided Unit := fun _ => none

def ofWriting {α : Type} (w : Writing α) : Guided α := fun d => some (w.run.run d)

/-- Ask the native library while arguments are written. -/
def native {α : Type} (a : Attempt α) : Writing α := fun d =>
  let (e, f) := a.run.run d.failures
  (e, { d with failures := f })

/-- Go on from where the filling of a container has come to. -/
def settle (p : Pen) : Except Fault Unit × Desk → Option (Except Fault Unit × Desk)
  | (outcome, d) => some ((p.finish outcome).run.run d)

/-- Open an array for the elements of the type that the cursor is on. -/
def openArray (c : Cursor) (p : Pen) : Writing Pen := do
  let inner ← native c.enter
  let s ← native inner.text
  p.openContainer .array (some s)

mutual

/-- Write values from an index on, one for each type that the cursor still comes to. -/
def appendSub (depth : Nat) (v : Validator) (xs : List Value) (index : Nat) (c : Cursor)
    (p : Pen) : Guided Unit :=
  match depth with
  | 0 => tooDeep
  | depth + 1 =>
    match c.advance with
    | (some _, _) => if index = xs.length then pure () else throw .tooManyValues
    | (none, c) =>
      if xs.length ≤ index then throw .tooFewValues
      else match xs[index]? with
        | none => throw .noSuchIndex
        | some x => do
          appendOne depth v x c p
          appendSub depth v xs (index + 1) c p
termination_by structural depth

/-- Write one value as the type that the cursor is on. -/
def appendOne (depth : Nat) (v : Validator) (x : Value) (c : Cursor) (p : Pen) : Guided Unit :=
  match depth with
  | 0 => tooDeep
  | depth + 1 =>
    if (BasicType.ofCode? c.code).isSome then ofWriting (p.appendBasic v c.code x)
    else if c.code = ContainerKind.array.code then appendArray depth v x c p
    else if c.code = ContainerKind.struct.code then
      match x.items? with
      | none => throw .structNeedsSequence
      | some xs => do
        let q ← ofWriting (p.openContainer .struct none)
        fun d => (do
          let inner ← ofWriting (native c.enter)
          appendSub depth v xs 0 inner q : Guided Unit).run.run d >>= settle q
    else if c.code = ContainerKind.variant.code then appendVariant depth v x (max x.level 1) p
    else throw (.unknownType ("b" ++ Text.quoted (String.singleton (Char.ofNat c.code))))
termination_by structural depth

/-- Write a value as the array that the cursor is on. -/
def appendArray (depth : Nat) (v : Validator) (x : Value) (c : Cursor) (p : Pen) : Guided Unit :=
  match depth with
  | 0 => tooDeep
  | depth + 1 =>
    if c.elementCode = ContainerKind.dictEntry.code then
      match x.entries? with
      | none => throw .entriesNeedMap
      | some es => do
        let q ← ofWriting (openArray c p)
        fun d => (appendEntries depth v es c q).run.run d >>= settle q
    else
      match x.sequence? with
      | none => throw .arrayNeedsSequence
      | some xs => do
        let q ← ofWriting (openArray c p)
        fun d => (appendElements depth v xs c q).run.run d >>= settle q
termination_by structural depth

/-- Write entries, each along a cursor of its own into the array. -/
def appendEntries (depth : Nat) (v : Validator) (es : List (Value × Value)) (c : Cursor)
    (p : Pen) : Guided Unit :=
  match depth with
  | 0 => tooDeep
  | depth + 1 =>
    match es with
    | [] => pure ()
    | (x, y) :: es => do
      let q ← ofWriting (p.openContainer .dictEntry none)
      (fun d => (do
        let inner ← ofWriting (native c.enter)
        let inner ← ofWriting (native inner.enter)
        appendSub depth v [x, y] 0 inner q : Guided Unit).run.run d >>= settle q : Guided Unit)
      appendEntries depth v es c p
termination_by structural depth

/-- Write elements, each along a cursor of its own into the array. -/
def appendElements (depth : Nat) (v : Validator) (xs : List Value) (c : Cursor) (p : Pen) :
    Guided Unit :=
  match depth with
  | 0 => tooDeep
  | depth + 1 =>
    match xs with
    | [] => pure ()
    | x :: xs => do
      let inner ← ofWriting (native c.enter)
      appendSub depth v [x] 0 inner p
      appendElements depth v xs c p
termination_by structural depth

/-- Write a value in a number of variants. -/
def appendVariant (depth : Nat) (v : Validator) (x : Value) (levels : Nat) (p : Pen) :
    Guided Unit :=
  match depth with
  | 0 => tooDeep
  | depth + 1 =>
    if 1 < levels then do
      let q ← ofWriting (p.openContainer .variant (some "v"))
      fun d => (appendVariant depth v x (levels - 1) q).run.run d >>= settle q
    else do
      let contents ← ofWriting (Marshal.lift (x.guessPlain v))
      let q ← ofWriting (p.openContainer .variant (some contents))
      fun d => (do
        let g ← ofWriting (Marshal.lift (Signature.ofText v contents))
        appendSub depth v [x] 0 (Cursor.start g) q : Guided Unit).run.run d >>= settle q
termination_by structural depth

end

/-- Append values along a cursor over a signature; without one, it is guessed. -/
def append (depth : Nat) (v : Validator) (signature x : Value) : Guided Unit := do
  let values := Marshal.arguments x
  let signature ← match signature with
    | .null => ofWriting (Marshal.lift (.text <$> Value.guessAll v values))
    | s => pure s
  let g ← ofWriting (Marshal.lift (Signature.ofValue v signature))
  appendSub depth v values 0 (Cursor.start g) .top

/-! ## Writing that ends -/

section

variable {α β : Type} {v : Validator} {p : Pen} {c : Cursor}

theorem ofWriting_pure (a : α) : ofWriting (pure a) = pure a := rfl

theorem run_ofWriting_bind (w : Writing α) (k : α → Guided β) (d : Desk) :
    (ofWriting w >>= k).run.run d =
      match w.run.run d with
      | (.ok a, d') => (k a).run.run d'
      | (.error f, d') => some (.error f, d') := by
  rw [ExceptT.run_bind, StateT.run_bind]
  change (some (w.run.run d) >>= _) = _
  rcases w.run.run d with ⟨_ | _, d'⟩ <;> rfl

theorem ofWriting_bind (w : Writing α) (k : α → Writing β) :
    ofWriting (w >>= k) = ofWriting w >>= fun a => ofWriting (k a) := by
  funext d
  change some ((w >>= k).run.run d) = (ofWriting w >>= fun a => ofWriting (k a)).run.run d
  rw [run_ofWriting_bind, Writing.run_bind]
  rcases w.run.run d with ⟨_ | _, d'⟩ <;> rfl

/-- What is filled is closed, or abandoned if filling it failed. -/
theorem settle_ofWriting (n : Nat) (w : Writing Unit) :
    (fun d => (ofWriting w).run.run d >>= settle (.into n) : Guided Unit) =
      ofWriting (do
        tryCatch w fun f => do
          Writing.abandonContainer n
          throw f
        Writing.closeContainer n) := by
  funext d
  change (some (w.run.run d) >>= settle (.into n)) = some (StateT.run (ExceptT.run (do
    tryCatch w fun f => do
      Writing.abandonContainer n
      throw f
    Writing.closeContainer n : Writing Unit)) d)
  rw [Writing.run_bind, Writing.run_tryCatch]
  rcases w.run.run d with ⟨_ | _, d'⟩ <;> rfl

theorem openContainer_of_writing (hp : p.writing = true) (k : ContainerKind)
    (signature : Option String) : p.openContainer k signature = (do
      let n ← Writing.openContainer p.place k signature
      return .into n) := by
  rw [Pen.openContainer, hp]
  rfl

/-- Filling what an iterator has opened is filling a container at its place. -/
theorem ofWriting_inContainer (hp : p.writing = true) (k : ContainerKind)
    (signature : Option String) (fill : Pen → Guided Unit) (w : Place → Writing Unit)
    (h : ∀ n, fill (.into n) = ofWriting (w (.draft n))) :
    (do
      let q ← ofWriting (p.openContainer k signature)
      fun d => (fill q).run.run d >>= settle q : Guided Unit) =
      ofWriting (Writing.inContainer p.place k signature w) := by
  rw [openContainer_of_writing hp, Writing.inContainer, ofWriting_bind, ofWriting_bind,
    bind_assoc]
  congr 1
  funext n
  rw [ofWriting_pure, pure_bind, h, settle_ofWriting]

theorem native_bind (a : Attempt α) (k : α → Attempt β) :
    native (a >>= k) = native a >>= fun x => native (k x) := by
  funext d
  change _ = (native a >>= fun x => native (k x)).run.run d
  rw [Writing.run_bind]
  change (let (e, f) := (a >>= k).run.run d.failures; (e, { d with failures := f })) =
    match native a d with
    | (.ok x, d') => native (k x) d'
    | (.error f, d') => (.error f, d')
  rw [ExceptT.run_bind, StateT.run_bind]
  simp only [native]
  rcases a.run.run d.failures with ⟨_ | _, f⟩ <;> rfl

theorem native_call (r : Routine) : native (Attempt.call r) = Writing.call r := rfl

theorem native_enter (h : c.isContainer = true) : native c.enter = pure c.inside := by
  rw [Cursor.enter, if_pos h]
  rfl

theorem native_text {chars rest : List Char} (hcode : c.code ≠ noType)
    (hsplit : splitType c.rest = (chars, rest)) :
    native c.text = (do
      Writing.call .signatureText
      return String.ofList chars) := by
  have hcurrent : c.current = chars := by rw [Cursor.current, if_neg hcode, hsplit]
  rw [Cursor.text, if_neg hcode, hcurrent, native_bind, native_call]
  rfl

end

end Guided

end DBusHost
