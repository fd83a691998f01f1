import DBusHost.Session.State

/-!
# Ownership of native objects

The references to a native object are counted.  A wrapper owns one of them, and no
native object has two live wrappers: taking over a reference to an object that has a
live wrapper gives that reference back and answers with the wrapper there is.

A wrapper that nothing refers to any more is disposed of, which gives back the
reference it owns.
-/

namespace DBusHost.Host

/-- Change the number of references to a native object. -/
def countBy (r : Resource) (n : Int) : StateM Host Unit :=
  modify fun h => { h with references := h.references.put r (h.count r + n) }

/-- A native object comes into being with one reference. -/
def create (r : Resource) : StateM Host Unit := do
  countBy r 1
  record (.created r)

/-- The native library takes one more reference. -/
def share (r : Resource) : StateM Host Unit := do
  countBy r 1
  record (.shared r)

/-- The host gives back a reference. -/
def release (r : Resource) : StateM Host Unit := do
  countBy r (-1)
  record (.released r)

/-- The host takes over a reference and gets the wrapper of the object. -/
def adopt (r : Resource) : StateM Host WrapperId := do
  record (.adopted r)
  match (← get).wrapperOf? r with
  | some w =>
    release r
    return w
  | none =>
    let w := (← get).wrappers.length
    modify fun h => { h with wrappers := h.wrappers ++ [⟨r, true⟩] }
    return w

/-- Dispose of a wrapper, if it is live and nothing refers to it. -/
def letGoWrapper (w : WrapperId) : StateM Host Unit := do
  let h ← get
  match h.wrappers[w]? with
  | some wrapper =>
    if wrapper.live && !h.refersTo w then
      set { h with wrappers := h.wrappers.modify w fun wrapper => { wrapper with live := false } }
      release wrapper.resource
  | none => return

/-- A new native message with one reference. -/
def createMessage (message : Message) : StateM Host MessageId := do
  let m := (← get).messages.length
  modify fun h => { h with messages := h.messages ++ [message] }
  create (.message m)
  return m

/-- Let a label stand for a native object, whatever it stood for before. -/
def relabel (name : String) (r : Resource) : StateM Host Unit :=
  modify fun h => { h with labels := h.labels.put name r }

/-- Let a label stand for a native object, unless it stands for one already. -/
def label (name : String) (r : Resource) : StateM Host Unit :=
  modify fun h => { h with labels := h.labels.putNew name r }

end DBusHost.Host
