import DocumentQuery.Config
import DocumentQuery.Source
/-!
# New blocks

The blocks that a query begins with: all documents of an entity type, a query
that is given as text, a single value, the items of an array. Each of them binds
one expression to the root of the result shape.
-/

namespace DocumentQuery.Block

/-- A block without sources that binds an expression to the root. -/
def projecting (projected : Projected) : Block :=
  { Block.empty with projection := .pending ⟨[(.root, projected)]⟩ }

def forEntity (config : Config) (entityType : String) : Block :=
  { projecting (.object entityType (.objectReference entityType config.rootAlias)) with
    sources := [.root entityType config.rootContainer config.rootAlias] }

def forPointRead (config : Config) (entityType : String) (pointRead : PointRead) : Block :=
  { forEntity config entityType with pointRead := some pointRead }

def ofText (config : Config) (entityType text : String) : Block :=
  { forEntity config entityType with sources := [.ofText entityType text config.rootAlias] }

/-- A value for each item of an array, the item being bound to an alias. -/
def overCollection (collection : Expr) (aliasName : String) (projected : Projected) : Block :=
  { projecting projected with sources := [.iterate collection aliasName], singleValue := true }

end DocumentQuery.Block
