import DocumentQuery.Block.Build
import DocumentQuery.Proofs.Calls
/-!
# Runs of calls

A query begins with one of a few blocks (`Initial`), and calls are made on it
one after the other (`run`). A call that is refused may be followed by others
nevertheless, so a run is any list of calls; `accepted` picks out those that
succeeded. A run is followed from its end: what holds after it is read off the
last call and the block before that (`run_append_singleton`).
-/

namespace DocumentQuery

namespace Block

/-- The blocks that queries begin with. -/
inductive Initial : Block → Prop where
  | forEntity (config : Config) (entityType : String) : Initial (.forEntity config entityType)
  | forPointRead (config : Config) (entityType : String) (pointRead : PointRead) :
      Initial (.forPointRead config entityType pointRead)
  | ofText (config : Config) (entityType text : String) : Initial (.ofText config entityType text)
  | projecting (projected : Projected) : Initial (.projecting projected)
  | ofValue (expression : Expr) : Initial (.ofValue expression)
  | overCollection (collection : Expr) (aliasName : String) (projected : Projected) :
      Initial (.overCollection collection aliasName projected)

/-- The block after calls that were made one after the other, be they refused or
not. -/
def run (block : Block) : List Call → Block
  | [] => block
  | call :: rest => (block.perform call).block.run rest

def accepts (block : Block) (call : Call) : Bool :=
  (block.perform call).answer.isOk

/-- The calls of a run that succeed. -/
def accepted (block : Block) : List Call → List Call
  | [] => []
  | call :: rest =>
    let later := (block.perform call).block.accepted rest
    if block.accepts call then call :: later else later

@[simp] theorem run_nil (block : Block) : block.run [] = block := rfl

@[simp] theorem run_cons (block : Block) (call : Call) (rest : List Call) :
    block.run (call :: rest) = (block.perform call).block.run rest := rfl

@[simp] theorem accepted_nil (block : Block) : block.accepted [] = [] := rfl

theorem run_append (block : Block) (earlier later : List Call) :
    block.run (earlier ++ later) = (block.run earlier).run later := by
  induction earlier generalizing block with
  | nil => rfl
  | cons call rest ih => rw [List.cons_append, run_cons, run_cons, ih]

theorem run_append_singleton (block : Block) (calls : List Call) (call : Call) :
    block.run (calls ++ [call]) = ((block.run calls).perform call).block := by
  rw [run_append, run_cons, run_nil]

theorem accepted_append_singleton (block : Block) (calls : List Call) (call : Call) :
    block.accepted (calls ++ [call]) =
      block.accepted calls ++ if (block.run calls).accepts call then [call] else [] := by
  induction calls generalizing block with
  | nil => rfl
  | cons first rest ih =>
      rw [List.cons_append, accepted, accepted, ih, run_cons]
      split <;> rfl

end Block

end DocumentQuery
