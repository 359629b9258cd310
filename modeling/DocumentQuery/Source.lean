import DocumentQuery.Alias
import DocumentQuery.Expr
import DocumentQuery.Projection.Freeze
/-!
# Sources

The ways to make a source. An array that the query language cannot iterate over
directly is wrapped into a query that selects it as a single value, and the
source iterates over that query instead.
-/

namespace DocumentQuery

/-- A frozen block that selects an expression as its single value. -/
def Block.ofValue (expression : Expr) : Block :=
  { Block.empty with
    projection := .frozen [newColumn [] (.scalar expression) none defaultColumnAlias] .empty
    singleValue := true }

namespace Source

def root (entityType container aliasName : String) : Source :=
  ⟨.root entityType container, aliasName, false⟩

def nested (block : Block) (aliasName : String) : Source :=
  ⟨.select block, aliasName, false⟩

def ofText (entityType text aliasName : String) : Source :=
  ⟨.raw entityType text, aliasName, false⟩

/-- The items of an array, directly or through a wrapping query. -/
def iterate (collection : Expr) (aliasName : String) : Source :=
  if collection.isPath then ⟨.collection collection, aliasName, true⟩
  else ⟨.select (.ofValue collection), aliasName, true⟩

theorem iterated_iterate (collection : Expr) (aliasName : String) :
    (iterate collection aliasName).iterated = true := by
  unfold iterate
  split <;> rfl

theorem aliasName_iterate (collection : Expr) (aliasName : String) :
    (iterate collection aliasName).aliasName = aliasName := by
  unfold iterate
  split <;> rfl

end Source

end DocumentQuery
