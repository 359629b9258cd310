import DocumentQuery.OrderedMap
/-!
# Positions in the shape of a result

A query answers with a shape that the caller describes: an object with fields,
fields of fields, items of lists. A `Member` is a position in that shape, the
path of steps from the whole result down to it. The empty path is the root.
-/

namespace DocumentQuery

inductive Step where
  | field (name : String)
  | index (place : Nat)
deriving DecidableEq

def Step.text : Step → String
  | .field name => name
  | .index place => "[" ++ toString place ++ "]"

def Step.name? : Step → Option String
  | .field name => some name
  | .index _ => none

/-- A position in a shape. -/
structure Member where
  steps : List Step
deriving DecidableEq

namespace Member

def root : Member := ⟨[]⟩

def isRoot (member : Member) : Bool :=
  member.steps.isEmpty

def append (member : Member) (step : Step) : Member :=
  ⟨member.steps ++ [step]⟩

/-- The same position seen from a shape that holds the whole under `step`. -/
def prepend (member : Member) (step : Step) : Member :=
  ⟨step :: member.steps⟩

def last? (member : Member) : Option Step :=
  member.steps.getLast?

def lastName? (member : Member) : Option String :=
  member.last?.bind Step.name?

def text (member : Member) : String :=
  if member.isRoot then "(root)" else ".".intercalate (member.steps.map Step.text)

@[simp] theorem isRoot_iff (member : Member) : member.isRoot = true ↔ member = root := by
  cases member with
  | mk steps => simp [isRoot, root]

theorem prepend_injective {a b : Member} {step : Step} (equal : a.prepend step = b.prepend step) :
    a = b := by
  cases a
  cases b
  simpa [prepend] using equal

theorem prepend_ne_root (member : Member) (step : Step) : member.prepend step ≠ root := by
  simp [prepend, root]

end Member

/-- A table of what is bound to positions, in the order of binding. -/
abbrev Mapping (α : Type) := OrderedMap Member α

end DocumentQuery
