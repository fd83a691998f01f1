import DBusHost.Proofs.Signature.WellFormed
import DBusHost.Signature.Cursor

/-!
# The parse tree of a signature

The nodes of the tree of a type are the types, fields and dict entries that a walk into all
containers comes to.  `Visit.IsTree` says what holds at each node and below it: the text of a
container is its mark and the texts of its children, and only arrays know a type of elements.
-/

namespace DBusHost

namespace Visit

def code : Visit → Nat
  | mk code _ _ _ => code

def elementCode : Visit → Nat
  | mk _ elementCode _ _ => elementCode

def text : Visit → String
  | mk _ _ text _ => text

def inside : Visit → Option (List Visit)
  | mk _ _ _ inside => inside

/-- The texts of nodes, one after the other. -/
def joined (nodes : List Visit) : String := String.join (nodes.map text)

/-- The node is the root of a parse tree: a basic type or a variant, which cannot be entered;
an array with one child; a struct with a field; or a dict entry of a key and a value. -/
inductive IsTree : Visit → Prop
  | leaf {c : Char} (hc : c = 'v' ∨ ∃ b : BasicType, c = b.char) :
      IsTree (mk (typeCode c) noType (String.singleton c) none)
  | array {child : Visit} (h : IsTree child) :
      IsTree (mk ContainerKind.array.code child.code ("a" ++ child.text) (some [child]))
  | struct {fields : List Visit} (hne : fields ≠ []) (h : ∀ field ∈ fields, IsTree field) :
      IsTree (mk ContainerKind.struct.code noType ("(" ++ joined fields ++ ")") (some fields))
  | dictEntry {key value : Visit} (hkey : IsTree key) (hvalue : IsTree value) :
      IsTree (mk ContainerKind.dictEntry.code noType
        ("\x7b" ++ (key.text ++ value.text) ++ "\x7d") (some [key, value]))

end Visit

namespace SigType

def code : SigType → Nat
  | basic b => typeCode b.char
  | variant => ContainerKind.variant.code
  | array _ | dict _ _ => ContainerKind.array.code
  | struct _ => ContainerKind.struct.code

/-- The characters of a dict entry, which has a text but is no complete type. -/
def entryChars (k : BasicType) (w : SigType) : List Char := '{' :: k.char :: w.chars ++ ['}']

/-- The node of a basic type. -/
def leaf (c : Char) : Visit := .mk (typeCode c) noType (String.singleton c) none

mutual

/-- The parse tree of a type. -/
def visit : SigType → Visit
  | basic b => leaf b.char
  | variant => leaf 'v'
  | array e => .mk ContainerKind.array.code e.code (array e).text (some [e.visit])
  | dict k w => .mk ContainerKind.array.code ContainerKind.dictEntry.code (dict k w).text
      (some [.mk ContainerKind.dictEntry.code noType
        ("\x7b" ++ (String.singleton k.char ++ w.text) ++ "\x7d")
        (some [leaf k.char, w.visit])])
  | struct fs => .mk ContainerKind.struct.code noType (struct fs).text (some (listVisit fs))
termination_by structural t => t

def listVisit : List SigType → List Visit
  | [] => []
  | t :: ts => t.visit :: listVisit ts
termination_by structural ts => ts

end

theorem listVisit_eq_map (ts : List SigType) : listVisit ts = ts.map visit := by
  induction ts with
  | nil => rfl
  | cons t ts ih => rw [listVisit, ih, List.map_cons]

theorem code_visit (t : SigType) : t.visit.code = t.code := by
  cases t <;> rfl

theorem text_visit (t : SigType) : t.visit.text = t.text := by
  cases t <;> rfl

theorem joined_listVisit (ts : List SigType) : Visit.joined (listVisit ts) = listText ts := by
  induction ts with
  | nil => rfl
  | cons t ts ih =>
      have hjoin : Visit.joined (t.visit :: listVisit ts) =
          t.visit.text ++ Visit.joined (listVisit ts) := by
        simp [Visit.joined]
      rw [listVisit, hjoin, ih, text_visit]
      simp [text, listText, listChars]

theorem isTree_leaf (b : BasicType) : (leaf b.char).IsTree := .leaf (.inr ⟨b, rfl⟩)

theorem text_array (e : SigType) : (array e).text = "a" ++ e.text := by
  simp [text, chars]

theorem text_struct (fs : List SigType) : (struct fs).text = "(" ++ listText fs ++ ")" := by
  simp [text, chars, listText, String.append_assoc]

/-- The text of a dict entry is made of the texts of its key and its value. -/
theorem ofList_entryChars (k : BasicType) (w : SigType) : String.ofList (entryChars k w) =
    "\x7b" ++ (String.singleton k.char ++ w.text) ++ "\x7d" := by
  simp [entryChars, text, String.append_assoc]

theorem text_dict (k : BasicType) (w : SigType) :
    (dict k w).text = "a" ++ ("\x7b" ++ (String.singleton k.char ++ w.text) ++ "\x7d") := by
  rw [← ofList_entryChars]
  simp [text, chars, entryChars]

mutual

/-- The tree of a type in which every struct has a field obeys the laws at each node. -/
theorem isTree_visit : (t : SigType) → t.hasFields = true → t.visit.IsTree
  | basic b, _ => isTree_leaf b
  | variant, _ => .leaf (.inl rfl)
  | array e, h => by
      have htree := Visit.IsTree.array (isTree_visit e (by simpa [hasFields] using h))
      rwa [code_visit, text_visit, ← text_array] at htree
  | dict k w, h => by
      have hvalue := isTree_visit w (by simpa [hasFields] using h)
      have hentry := Visit.IsTree.dictEntry (isTree_leaf k) hvalue
      have hchild : (leaf k.char).text ++ w.visit.text = String.singleton k.char ++ w.text := by
        rw [text_visit]
        rfl
      rw [hchild] at hentry
      have htree := Visit.IsTree.array hentry
      rwa [Visit.text, ← text_dict] at htree
  | struct fs, h => by
      simp only [hasFields, Bool.and_eq_true, Bool.not_eq_true', List.isEmpty_eq_false_iff] at h
      have hne : listVisit fs ≠ [] := by simpa [listVisit_eq_map] using h.1
      have htree := Visit.IsTree.struct hne (isTree_listVisit fs h.2)
      rwa [joined_listVisit, ← text_struct] at htree

theorem isTree_listVisit : (ts : List SigType) → listHasFields ts = true →
    ∀ node ∈ listVisit ts, node.IsTree
  | [], _ => by simp [listVisit]
  | t :: ts, h => by
      simp only [listHasFields, Bool.and_eq_true] at h
      simpa [listVisit] using ⟨isTree_visit t h.1, isTree_listVisit ts h.2⟩

end

end SigType

end DBusHost
