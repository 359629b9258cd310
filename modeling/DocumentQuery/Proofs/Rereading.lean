import DocumentQuery.Proofs.JsonText
import DocumentQuery.Proofs.PlanReading
import DocumentQuery.Proofs.Sameness
/-!
# What a stored plan is read as

The text of a floating point number is the shortest one that is nearest to it, but
the reader rounds twice and can come to the number beside it. So a plan that is
stored as a text may be read with other constants, but nothing else changes: the
form of a plan in which every number is what it is read as is the form of a plan
again, that with these constants (`Block.reread_toJson`). The plan survives as a
text exactly if it nests no deeper than a text may and is the same with these
constants (`Block.survives_iff_of_readable`), as it is if all its numbers are
legible (`Block.same_reread_of_legible`).
-/

namespace DocumentQuery

mutual

/-- The expression with constants that are what they are read as. -/
def Expr.reread : Expr → Expr
  | .constant value type => .constant value.reread type
  | .parameter name type => .parameter name type
  | .binary operator left right type => .binary operator left.reread right.reread type
  | .unary operator operand type => .unary operator operand.reread type
  | .property base name type => .property base.reread name type
  | .item array index type => .item array.reread index.reread type
  | .call function arguments type => .call function (rereadExprs arguments) type
  | .inlineArray items => .inlineArray (rereadExprs items)
  | .membership item values negated => .membership item.reread (rereadExprs values) negated
  | .subquery kind block => .subquery kind block.reread
  | .scalarReference aliasName type => .scalarReference aliasName type
  | .objectReference entityType aliasName => .objectReference entityType aliasName
  | .fragment text => .fragment text

def rereadExprs : List Expr → List Expr
  | [] => []
  | expression :: rest => expression.reread :: rereadExprs rest

def rereadOptional : Option Expr → Option Expr
  | none => none
  | some expression => some expression.reread

def Projected.reread : Projected → Projected
  | .scalar value => .scalar value.reread
  | .object entityType access => .object entityType access.reread

def rereadEntries : List (Member × Projected) → List (Member × Projected)
  | [] => []
  | (member, projected) :: rest => (member, projected.reread) :: rereadEntries rest

def rereadColumns : List Column → List Column
  | [] => []
  | ⟨projected, aliasName⟩ :: rest => ⟨projected.reread, aliasName⟩ :: rereadColumns rest

def Projection.reread : Projection → Projection
  | .pending ⟨entries⟩ => .pending ⟨rereadEntries entries⟩
  | .frozen columns bindings => .frozen (rereadColumns columns) bindings

def Payload.reread : Payload → Payload
  | .root entityType container => .root entityType container
  | .select block => .select block.reread
  | .collection expression => .collection expression.reread
  | .raw entityType text => .raw entityType text

def rereadSources : List Source → List Source
  | [] => []
  | ⟨payload, aliasName, iterated⟩ :: rest =>
    ⟨payload.reread, aliasName, iterated⟩ :: rereadSources rest

def rereadSortKeys : List SortKey → List SortKey
  | [] => []
  | ⟨expression, ascending⟩ :: rest => ⟨expression.reread, ascending⟩ :: rereadSortKeys rest

def rereadKeyBindings : List KeyBinding → List KeyBinding
  | [] => []
  | ⟨value, property⟩ :: rest => ⟨value.reread, property⟩ :: rereadKeyBindings rest

def Block.reread : Block → Block
  | ⟨sources, projection, predicate, orderings, limit, offset, distinct, singleValue, keyBindings,
      pointRead⟩ =>
    ⟨rereadSources sources, projection.reread, rereadOptional predicate, rereadSortKeys orderings,
      rereadOptional limit, rereadOptional offset, distinct, singleValue,
      rereadKeyBindings keyBindings, pointRead⟩

end

/-! ## Parts without floating point numbers -/

namespace Json

theorem rereadItems_map_eq {α : Type} {form : α → Json}
    (h : ∀ value, (form value).reread = form value) (values : List α) :
    rereadItems (values.map form) = values.map form := by
  induction values with
  | nil => rfl
  | cons value rest ih => rw [List.map_cons, rereadItems, h, ih]

end Json

theorem Step.reread_toJson (step : Step) : step.toJson.reread = step.toJson := by
  cases step <;> rfl

theorem Member.reread_toJson (member : Member) : member.toJson.reread = member.toJson :=
  congrArg Json.array (Json.rereadItems_map_eq Step.reread_toJson member.steps)

theorem reread_bindingsToJson (bindings : Mapping Nat) :
    (bindingsToJson bindings).reread = bindingsToJson bindings := by
  refine congrArg Json.array (Json.rereadItems_map_eq (fun entry => ?_) bindings.entries)
  simp [Json.reread, Json.rereadItems, Member.reread_toJson, Json.ofNat, Number.reread]

theorem PointRead.reread_toJson (pointRead : PointRead) :
    pointRead.toJson.reread = pointRead.toJson := by
  let form (key : String × String) : Json := .array [propertyToJson key.1, .string key.2]
  have hkeys : Json.rereadItems (pointRead.keys.map form) = pointRead.keys.map form :=
    Json.rereadItems_map_eq (fun _ => rfl) pointRead.keys
  simp only [toJson, Json.reread, Json.rereadFields, form] at hkeys ⊢
  rw [hkeys]

/-! ## Forms of plans -/

mutual

theorem Expr.reread_toJson : ∀ expression : Expr,
    expression.toJson.reread = expression.reread.toJson
  | .constant _ _ => rfl
  | .parameter _ _ => rfl
  | .binary _ left right _ => by
      rw [Expr.reread, Expr.toJson, Expr.toJson, ← left.reread_toJson, ← right.reread_toJson]
      rfl
  | .unary _ operand _ => by
      rw [Expr.reread, Expr.toJson, Expr.toJson, ← operand.reread_toJson]
      rfl
  | .property base _ _ => by
      rw [Expr.reread, Expr.toJson, Expr.toJson, ← base.reread_toJson]
      rfl
  | .item array index _ => by
      rw [Expr.reread, Expr.toJson, Expr.toJson, ← array.reread_toJson, ← index.reread_toJson]
      rfl
  | .call _ arguments _ => by
      rw [Expr.reread, Expr.toJson, Expr.toJson, ← reread_exprsToJson arguments]
      rfl
  | .inlineArray items => by
      rw [Expr.reread, Expr.toJson, Expr.toJson, ← reread_exprsToJson items]
      rfl
  | .membership item values _ => by
      rw [Expr.reread, Expr.toJson, Expr.toJson, ← item.reread_toJson,
        ← reread_exprsToJson values]
      rfl
  | .subquery _ block => by
      rw [Expr.reread, Expr.toJson, Expr.toJson, ← block.reread_toJson]
      rfl
  | .scalarReference _ _ => rfl
  | .objectReference _ _ => rfl
  | .fragment _ => rfl

theorem reread_exprsToJson : ∀ expressions : List Expr,
    Json.rereadItems (exprsToJson expressions) = exprsToJson (rereadExprs expressions)
  | [] => rfl
  | expression :: rest => by
      rw [exprsToJson, rereadExprs, exprsToJson, Json.rereadItems, expression.reread_toJson,
        reread_exprsToJson rest]

theorem reread_optionalToJson : ∀ optional : Option Expr,
    (optionalToJson optional).reread = optionalToJson (rereadOptional optional)
  | none => rfl
  | some expression => expression.reread_toJson

theorem Projected.reread_toJson : ∀ projected : Projected,
    projected.toJson.reread = projected.reread.toJson
  | .scalar value => by
      rw [Projected.reread, Projected.toJson, Projected.toJson, ← value.reread_toJson]
      rfl
  | .object _ access => by
      rw [Projected.reread, Projected.toJson, Projected.toJson, ← access.reread_toJson]
      rfl

theorem reread_entriesToJson : ∀ entries : List (Member × Projected),
    Json.rereadItems (entriesToJson entries) = entriesToJson (rereadEntries entries)
  | [] => rfl
  | (member, projected) :: rest => by
      rw [entriesToJson, rereadEntries, entriesToJson, Json.rereadItems, Json.reread,
        Json.rereadItems, Json.rereadItems, Json.rereadItems, member.reread_toJson,
        projected.reread_toJson, reread_entriesToJson rest]

theorem reread_columnsToJson : ∀ columns : List Column,
    Json.rereadItems (columnsToJson columns) = columnsToJson (rereadColumns columns)
  | [] => rfl
  | ⟨projected, _⟩ :: rest => by
      rw [columnsToJson, rereadColumns, columnsToJson, ← projected.reread_toJson,
        ← reread_columnsToJson rest]
      rfl

theorem Projection.reread_toJson : ∀ projection : Projection,
    projection.toJson.reread = projection.reread.toJson
  | .pending ⟨entries⟩ => by
      rw [Projection.reread, Projection.toJson, Projection.toJson, ← reread_entriesToJson entries]
      rfl
  | .frozen columns bindings => by
      simp only [Projection.toJson, Projection.reread, Json.variant, Json.reread,
        Json.rereadFields, reread_columnsToJson columns, reread_bindingsToJson bindings]

theorem Payload.reread_toJson : ∀ payload : Payload,
    payload.toJson.reread = payload.reread.toJson
  | .root _ _ => rfl
  | .select block => by
      rw [Payload.reread, Payload.toJson, Payload.toJson, ← block.reread_toJson]
      rfl
  | .collection expression => by
      rw [Payload.reread, Payload.toJson, Payload.toJson, ← expression.reread_toJson]
      rfl
  | .raw _ _ => rfl

theorem reread_sourcesToJson : ∀ sources : List Source,
    Json.rereadItems (sourcesToJson sources) = sourcesToJson (rereadSources sources)
  | [] => rfl
  | ⟨payload, _, _⟩ :: rest => by
      rw [sourcesToJson, rereadSources, sourcesToJson, ← payload.reread_toJson,
        ← reread_sourcesToJson rest]
      rfl

theorem reread_sortKeysToJson : ∀ keys : List SortKey,
    Json.rereadItems (sortKeysToJson keys) = sortKeysToJson (rereadSortKeys keys)
  | [] => rfl
  | ⟨expression, _⟩ :: rest => by
      rw [sortKeysToJson, rereadSortKeys, sortKeysToJson, ← expression.reread_toJson,
        ← reread_sortKeysToJson rest]
      rfl

theorem reread_keyBindingsToJson : ∀ bindings : List KeyBinding,
    Json.rereadItems (keyBindingsToJson bindings) =
      keyBindingsToJson (rereadKeyBindings bindings)
  | [] => rfl
  | ⟨value, _⟩ :: rest => by
      rw [keyBindingsToJson, rereadKeyBindings, keyBindingsToJson, ← value.reread_toJson,
        ← reread_keyBindingsToJson rest]
      rfl

/-- The form of a plan with other numbers is the form of the plan with these in
its constants. -/
theorem Block.reread_toJson : ∀ block : Block, block.toJson.reread = block.reread.toJson
  | ⟨sources, projection, predicate, orderings, limit, offset, _, _, keyBindings, pointRead⟩ => by
      have hpointRead : (Json.optional (pointRead.map PointRead.toJson)).reread =
          Json.optional (pointRead.map PointRead.toJson) := by
        cases pointRead with
        | none => rfl
        | some pointRead => exact pointRead.reread_toJson
      simp only [Block.toJson, Block.reread, Json.reread, Json.rereadFields,
        reread_sourcesToJson sources, projection.reread_toJson, reread_optionalToJson predicate,
        reread_sortKeysToJson orderings, reread_optionalToJson limit,
        reread_optionalToJson offset, reread_keyBindingsToJson keyBindings, hpointRead]

end

/-! ## Reading back -/

namespace Json

mutual

theorem depth_reread : ∀ json : Json, json.reread.depth = json.depth
  | .null => rfl
  | .bool _ => rfl
  | .number _ => rfl
  | .string _ => rfl
  | .array items => congrArg Nat.succ (depthOfItems_reread items)
  | .object fields => congrArg Nat.succ (depthOfFields_reread fields)

theorem depthOfItems_reread : ∀ items : List Json,
    Tree.depthOfItems (Tree.ofItems (rereadItems items)) = Tree.depthOfItems (Tree.ofItems items)
  | [] => rfl
  | item :: rest => congrArg₂ max item.depth_reread (depthOfItems_reread rest)

theorem depthOfFields_reread : ∀ fields : List (String × Json),
    Tree.depthOfFields (Tree.ofFields (rereadFields fields)) =
      Tree.depthOfFields (Tree.ofFields fields)
  | [] => rfl
  | (_, value) :: rest => congrArg₂ max value.depth_reread (depthOfFields_reread rest)

end

end Json

namespace Block

/-- The text of a block is read to a block that is the same. -/
def Survives (block : Block) : Prop :=
  ∃ read, Block.ofText? block.toJson.compact = some read ∧ block.same read = true

variable {block : Block}

theorem ofText?_compact_of_readable (h : block.toJson.Readable) :
    Block.ofText? block.toJson.compact =
      Block.read? true Json.nestingLimit (Tree.ofJson block.reread.toJson) := by
  rw [Block.ofText?, Tree.ofText?_compact_of_readable h, Option.bind_some, block.reread_toJson]

/-- The text of a block is read exactly if it nests no deeper than a text may, and
then to the block with the constants that are read in place of its own. -/
theorem ofText?_eq_some_of_readable (h : block.toJson.Readable) :
    ((∃ read, Block.ofText? block.toJson.compact = some read) ↔
        block.toJson.depth ≤ Json.nestingLimit) ∧
      ∀ read, Block.ofText? block.toJson.compact = some read → block.reread.same read = true := by
  have hrecovers := Block.recovers true block.reread
  have hdepth : block.reread.planForm.toJson.depth = block.toJson.depth := by
    rw [toJson_planForm, ← block.reread_toJson, Json.depth_reread]
  rw [ofText?_compact_of_readable h, ← block.reread.toJson_planForm]
  refine ⟨⟨?_, fun hle => ?_⟩, fun read hread => (hrecovers.of_read hread).2⟩
  · rintro ⟨read, hread⟩
    exact hdepth ▸ (hrecovers.of_read hread).1
  · obtain ⟨read, hread, -⟩ := hrecovers.reads (PlanForm.writtenAs_toJson _) (hdepth ▸ hle)
    exact ⟨read, hread⟩

/-- A block survives as a text exactly if it nests no deeper than a text may and
the constants that are read in place of its own are the same. -/
theorem survives_iff_of_readable (h : block.toJson.Readable) :
    block.Survives ↔
      block.toJson.depth ≤ Json.nestingLimit ∧ block.same block.reread = true := by
  obtain ⟨hsome, hreads⟩ := ofText?_eq_some_of_readable h
  constructor
  · rintro ⟨read, hread, hsame⟩
    refine ⟨hsome.mp ⟨read, hread⟩, ?_⟩
    rw [same_iff] at hsame ⊢
    exact hsame.trans ((same_iff _ _).mp (hreads read hread)).symm
  · rintro ⟨hdepth, hsame⟩
    obtain ⟨read, hread⟩ := hsome.mpr hdepth
    refine ⟨read, hread, ?_⟩
    rw [same_iff] at hsame ⊢
    exact hsame.trans ((same_iff _ _).mp (hreads read hread))

/-- If the form stays, what is read of it is the same as either block. -/
theorem same_reread_of_legible (h : block.toJson.Legible) : block.same block.reread = true := by
  have hform : block.reread.toJson = block.toJson := by rw [← block.reread_toJson, h.reread_eq]
  obtain ⟨read, hread, hsame⟩ :=
    (Block.recovers true block).reads block.writtenAs_toJson (Nat.le_refl _)
  obtain ⟨read', hread', hsame'⟩ :=
    (Block.recovers true block.reread).reads (hform ▸ block.reread.writtenAs_toJson)
      (Nat.le_refl _)
  obtain rfl : read = read' := Option.some.inj (hread.symm.trans hread')
  rw [same_iff] at hsame hsame' ⊢
  exact hsame.trans hsame'.symm

/-- The number nearest to 10⁻²³ is written as that, but read as the number above it,
so a block that compares with it does not survive. -/
example :
    let x : Binary64 := ⟨false, Binary64.round Binary64.one (Nat.pow 10 23)⟩
    let block := { empty with
      predicate := some (.binary .lessThan (.parameter "p" .number)
        (.constant (.number (.float x)) .number) .boolean) }
    Decimal.floatText x = "1e-23" ∧
      (Number.float x).reread = .float ⟨false, x.units + Binary64.spacing x.units⟩ ∧
      block.same block.reread = false := by
  decide +kernel

end Block

end DocumentQuery
