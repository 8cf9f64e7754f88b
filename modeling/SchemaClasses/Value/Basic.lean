import SchemaClasses.Entries
import SchemaClasses.Value.Scalar

/-!
# Values of a document

A document is a tree of scalars, lists and mappings.  Nothing in this file knows what the document
is about; it says what a value is, when it counts as given, and how it reads inside a text.

A document may contain itself.  Its collections then carry a `ring` number each, the tree repeats
them as often as its readers need, and the text of a value shows a collection that is met inside
itself by three dots.
-/

namespace SchemaClasses

/-- A value of a document.  The ring number of a collection tells it from all other collections of a
document that contains itself; in other documents there is none. -/
inductive Value where
  | scalar (s : Scalar)
  | list (items : List Value) (ring : Option Nat := none)
  | mapping (entries : List (Scalar × Value)) (ring : Option Nat := none)
  deriving Inhabited

abbrev Mapping := Entries Scalar Value

namespace Value

abbrev text (s : String) : Value := .scalar (.text s)

/-- The absent value. -/
abbrev null : Value := .scalar .null

/-- Whether a value counts as given: null, false, zero and whatever is empty do not. -/
def truthy : Value → Bool
  | scalar s => s.truthy
  | list items _ => !items.isEmpty
  | mapping entries _ => !entries.isEmpty

def kindName : Value → String
  | scalar s => s.kindName
  | list .. => "list"
  | mapping .. => "dict"

mutual

/-- The text of a value inside the collections of the given ring numbers. -/
def quotedInside (around : List Nat) : Value → String
  | scalar s => s.quoted
  | list items ring =>
    if ring.any around.contains then "[...]"
    else "[" ++ ", ".intercalate (quotedItems (ring.toList ++ around) items) ++ "]"
  | mapping entries ring =>
    if ring.any around.contains then "\x7b...\x7d"
    else
      "\x7b" ++ ", ".intercalate (quotedEntries (ring.toList ++ around) entries) ++ "\x7d"

def quotedItems (around : List Nat) : List Value → List String
  | [] => []
  | v :: rest => quotedInside around v :: quotedItems around rest

def quotedEntries (around : List Nat) : List (Scalar × Value) → List String
  | [] => []
  | (k, v) :: rest => (k.quoted ++ ": " ++ quotedInside around v) :: quotedEntries around rest

end

/-- The text of a value where a message shows the value itself. -/
def quoted (v : Value) : String := v.quotedInside []

/-- The text of a value where it is inserted into other text: a scalar is shown plainly. -/
def display : Value → String
  | scalar s => s.display
  | other => other.quoted

/-- The scalar that a value is, if it is one. -/
def scalar? : Value → Option Scalar
  | scalar s => some s
  | _ => none

/-- The text that a value is, if it is one. -/
def text? : Value → Option String
  | scalar (.text s) => some s
  | _ => none

/-- The entries of a value, if it is a mapping. -/
def mapping? : Value → Option Mapping
  | mapping entries _ => some entries
  | _ => none

@[simp] theorem text?_eq_some {v : Value} {s : String} : v.text? = some s ↔ v = text s := by
  unfold text?; split <;> simp_all

@[simp] theorem mapping?_eq_some {v : Value} {m : Mapping} :
    v.mapping? = some m ↔ ∃ ring, v = mapping m ring := by
  unfold mapping?; split <;> simp_all

def isText (v : Value) (s : String) : Bool :=
  match v with
  | scalar (.text t) => t == s
  | _ => false

def isNull : Value → Bool
  | scalar .null => true
  | _ => false

end Value

namespace Mapping

/-- The value under a text key. -/
def field? (m : Mapping) (name : String) : Option Value := Entries.get? m (.text name)

/-- Whether a text key is present. -/
def hasField (m : Mapping) (name : String) : Bool := Entries.contains m (.text name)

/-- The value under a text key, where an absent key counts as null. -/
def field (m : Mapping) (name : String) : Value := (field? m name).getD Value.null

/-- A value that stands under a key is smaller than the mapping. -/
theorem sizeOf_get?_lt {m : Mapping} {key : Scalar} {v : Value} (h : Entries.get? m key = some v) :
    sizeOf v < sizeOf m := by
  induction m with
  | nil => simp at h
  | cons entry rest ih =>
    obtain ⟨k, w⟩ := entry
    rw [Entries.get?_cons] at h
    split at h
    · cases h
      simp only [List.cons.sizeOf_spec, Prod.mk.sizeOf_spec]
      omega
    · have := ih h
      simp only [List.cons.sizeOf_spec]
      omega

end Mapping

end SchemaClasses
