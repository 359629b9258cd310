import DocumentQuery.Proofs.Traversal
import DocumentQuery.Walk
/-!
# What a walk reports

A walk reports the expressions of a block in the order in which a revision that
nothing stops comes to them (`Block.reports_eq`). Operators, lists and items of
arrays are not reported themselves, only what stands in them. So the names of
the parameters are those of the parameters that the block mentions
(`Block.mem_parameterNames_iff`).
-/

namespace DocumentQuery

/-- The report of an expression, if it is reported. -/
def Expr.report? : Expr → Option Report
  | .constant value type => some (.leaf (.constant value type))
  | .parameter name type => some (.parameter name type)
  | .property base name type => some (.property base name type)
  | .call function arguments type => some (.function function arguments type)
  | .subquery kind block => some (.subquery kind block)
  | .scalarReference aliasName _ => some (.reference aliasName)
  | .objectReference _ aliasName => some (.reference aliasName)
  | .fragment text => some (.leaf (.fragment text))
  | _ => none

/-- An expression and all that stands in it, nested blocks included. -/
def Expr.nodes (expression : Expr) : List Expr :=
  expression.reached fun _ => false

/-- The expressions that stand in the query text of a block at any depth. -/
def Block.nodes (block : Block) : List Expr :=
  block.reached fun _ => false

def Expr.Reported (expression : Expr) : Prop :=
  expression.reports = expression.nodes.filterMap Expr.report?

def Block.Reported (block : Block) : Prop :=
  block.reports = block.nodes.filterMap Expr.report?

/-! ## Lists and clauses -/

theorem reportsOfExprs_eq (expressions : List Expr) :
    reportsOfExprs expressions = expressions.flatMap Expr.reports := by
  induction expressions with
  | nil => rfl
  | cons expression rest ih => rw [reportsOfExprs, ih, List.flatMap_cons]

theorem Projected.reports_eq (projected : Projected) :
    projected.reports = projected.expression.reports := by
  cases projected <;> rfl

theorem reportsOfEntries_eq (entries : List (Member × Projected)) :
    reportsOfEntries entries = entries.flatMap (·.2.reports) := by
  induction entries with
  | nil => rfl
  | cons entry rest ih => rw [reportsOfEntries, ih, List.flatMap_cons]

theorem reportsOfColumns_eq (columns : List Column) :
    reportsOfColumns columns = columns.flatMap (·.expression.reports) := by
  induction columns with
  | nil => rfl
  | cons column rest ih =>
      cases column
      rw [reportsOfColumns, ih, List.flatMap_cons]

theorem reportsOfSources_eq (sources : List Source) :
    reportsOfSources sources = sources.flatMap (·.payload.reports) := by
  induction sources with
  | nil => rfl
  | cons source rest ih =>
      cases source
      rw [reportsOfSources, ih, List.flatMap_cons]

theorem reportsOfSortKeys_eq (keys : List SortKey) :
    reportsOfSortKeys keys = keys.flatMap (·.expression.reports) := by
  induction keys with
  | nil => rfl
  | cons key rest ih =>
      cases key
      rw [reportsOfSortKeys, ih, List.flatMap_cons]

theorem Block.reports_clauses (block : Block) :
    block.reports = block.projection.reports ++ reportsOfSources block.sources ++
      reportsOfOptional block.predicate ++ reportsOfSortKeys block.orderings ++
        reportsOfOptional block.offset ++ reportsOfOptional block.limit := by
  cases block
  rfl

/-- Items that are reported in full are so one after the other. -/
theorem flatMap_reported {α : Type} {items : List α} {report : α → List Report}
    {nodes : α → List Expr}
    (h : ∀ item ∈ items, report item = (nodes item).filterMap Expr.report?) :
    items.flatMap report = (items.flatMap nodes).filterMap Expr.report? := by
  rw [List.filterMap_flatMap, List.flatMap_def, List.flatMap_def, List.map_congr_left h]

theorem reported_exprs {expressions : List Expr}
    (h : ∀ expression ∈ expressions, expression.Reported) :
    reportsOfExprs expressions =
      (reachedIn (fun _ => false) expressions).filterMap Expr.report? := by
  rw [reportsOfExprs_eq, reachedIn_eq]
  exact flatMap_reported h

theorem reported_optional {optional : Option Expr}
    (h : ∀ expression ∈ optional, expression.Reported) :
    reportsOfOptional optional =
      (reachedInOptional (fun _ => false) optional).filterMap Expr.report? := by
  cases optional with
  | none => rfl
  | some expression => exact h expression rfl

theorem reported_projection {projection : Projection}
    (h : ∀ expression ∈ projection.expressions, expression.Reported) :
    projection.reports = (projection.reached fun _ => false).filterMap Expr.report? := by
  cases projection with
  | pending mapping =>
      rcases mapping with ⟨entries⟩
      rw [Projection.reports, Projection.reached, reportsOfEntries_eq, reachedInEntries_eq]
      refine flatMap_reported fun entry hentry => ?_
      rw [Projected.reports_eq]
      exact h _ (List.mem_map_of_mem (List.mem_map_of_mem hentry))
  | frozen columns bindings =>
      rw [Projection.reports, Projection.reached, reportsOfColumns_eq, reachedInColumns_eq]
      refine flatMap_reported fun column hcolumn => ?_
      rw [Projected.reports_eq]
      exact h _ (List.mem_map_of_mem hcolumn)

theorem reported_sources {sources : List Source}
    (harray : ∀ source ∈ sources, ∀ array ∈ source.collection?, array.Reported)
    (hblock : ∀ source ∈ sources, ∀ block ∈ source.block?, block.Reported) :
    reportsOfSources sources =
      (reachedInSources (fun _ => false) sources).filterMap Expr.report? := by
  rw [reportsOfSources_eq, reachedInSources_eq]
  refine flatMap_reported fun source hsource => ?_
  rcases source with ⟨payload, aliasName, iterated⟩
  cases payload with
  | root entityType container => rfl
  | select block => exact hblock _ hsource block rfl
  | collection array => exact harray _ hsource array rfl
  | raw entityType text => rfl

theorem reported_sortKeys {keys : List SortKey} (h : ∀ key ∈ keys, key.expression.Reported) :
    reportsOfSortKeys keys =
      (reachedInSortKeys (fun _ => false) keys).filterMap Expr.report? := by
  rw [reportsOfSortKeys_eq, reachedInSortKeys_eq]
  exact flatMap_reported h

/-! ## Expressions and blocks -/

theorem filterMap_onward (expression : Expr) (inside : List Expr) :
    (onward (fun _ => false) expression inside).filterMap Expr.report? =
      expression.report?.toList ++ inside.filterMap Expr.report? := by
  cases hreport : expression.report? <;> simp [onward, hreport]

/-- An expression is reported before its parts. -/
theorem Expr.reported_of_parts {expression : Expr}
    (hparts : ∀ part ∈ expression.parts, part.Reported)
    (hblock : ∀ block ∈ expression.block?, block.Reported) : expression.Reported := by
  cases expression with
  | binary operator left right type =>
      have hleft : left.Reported := hparts left (by simp [parts])
      have hright : right.Reported := hparts right (by simp [parts])
      rw [Reported, nodes, reached, filterMap_onward, List.filterMap_append, reports, hleft, hright]
      rfl
  | unary operator operand type =>
      have hoperand : operand.Reported := hparts operand (by simp [parts])
      rw [Reported, nodes, reached, filterMap_onward, reports, hoperand]
      rfl
  | property base name type =>
      have hbase : base.Reported := hparts base (by simp [parts])
      rw [Reported, nodes, reached, filterMap_onward, reports, hbase]
      rfl
  | item array index type =>
      have harray : array.Reported := hparts array (by simp [parts])
      have hindex : index.Reported := hparts index (by simp [parts])
      rw [Reported, nodes, reached, filterMap_onward, List.filterMap_append, reports, harray,
        hindex]
      rfl
  | call function arguments type =>
      have harguments : ∀ argument ∈ arguments, argument.Reported := hparts
      rw [Reported, nodes, reached, filterMap_onward, reports, reported_exprs harguments]
      rfl
  | inlineArray items =>
      have hitems : ∀ item ∈ items, item.Reported := hparts
      rw [Reported, nodes, reached, filterMap_onward, reports, reported_exprs hitems]
      rfl
  | membership value values negated =>
      rw [parts, List.forall_mem_cons] at hparts
      have hvalue : value.Reported := hparts.1
      rw [Reported, nodes, reached, filterMap_onward, List.filterMap_append, reports, hvalue,
        reported_exprs hparts.2]
      rfl
  | subquery kind block =>
      have hinner : block.Reported := hblock block rfl
      rw [Reported, nodes, reached, filterMap_onward, reports, hinner]
      rfl
  | _ => rfl

theorem Block.reported_of_clauses {block : Block}
    (hexpressions : ∀ expression ∈ block.expressions, expression.Reported)
    (hblocks : ∀ inner ∈ block.sourceBlocks, inner.Reported) : block.Reported := by
  simp only [expressions, List.forall_mem_append, List.mem_filterMap, List.forall_mem_map,
    Option.mem_toList] at hexpressions
  obtain ⟨⟨⟨⟨⟨hprojected, harrays⟩, hpredicate⟩, hkeys⟩, hoffset⟩, hlimit⟩ := hexpressions
  have hsources : reportsOfSources block.sources = _ := reported_sources
    (fun source hsource array harray => harrays array ⟨source, hsource, harray⟩)
    fun source hsource inner hinner =>
      hblocks inner (List.mem_filterMap.mpr ⟨source, hsource, hinner⟩)
  rw [Reported, nodes, reports_clauses, reached_eq, reported_projection hprojected, hsources,
    reported_optional hpredicate, reported_sortKeys hkeys, reported_optional hoffset,
    reported_optional hlimit]
  simp only [List.filterMap_append]

/-- A walk reports the expressions of a block in the order in which a revision
comes to them. -/
theorem Block.reports_eq (block : Block) : block.reports = block.nodes.filterMap Expr.report? := by
  have houtward : PassesOutward Expr.Reported Block.Reported :=
    ⟨fun _ => Expr.reported_of_parts, fun _ => Block.reported_of_clauses⟩
  exact houtward.all_block block

/-! ## The names of parameters -/

@[simp] theorem reportedNames_append (a b : List Report) :
    reportedNames (a ++ b) = reportedNames a ++ reportedNames b :=
  List.filterMap_append

theorem reportedNames_flatMap {α : Type} (items : List α) (report : α → List Report) :
    reportedNames (items.flatMap report) =
      items.flatMap fun item => reportedNames (report item) :=
  List.filterMap_flatMap

theorem mem_distinctAfter_iff {name : String} {seen names : List String} :
    name ∈ distinctAfter seen names ↔ name ∈ names ∧ name ∉ seen := by
  induction names generalizing seen with
  | nil => simp [distinctAfter]
  | cons first rest ih =>
      rw [distinctAfter]
      by_cases hfirst : first ∈ seen
      · rw [if_pos hfirst, ih, List.mem_cons]
        constructor
        · exact fun h => ⟨Or.inr h.1, h.2⟩
        · rintro ⟨rfl | hrest, hseen⟩
          · exact absurd hfirst hseen
          · exact ⟨hrest, hseen⟩
      · rw [if_neg hfirst, List.mem_cons, ih, List.mem_cons, List.mem_cons]
        constructor
        · rintro (rfl | ⟨hrest, hseen⟩)
          · exact ⟨Or.inl rfl, hfirst⟩
          · exact ⟨Or.inr hrest, fun h => hseen (Or.inr h)⟩
        · rintro ⟨hmem, hseen⟩
          by_cases hname : name = first
          · exact Or.inl hname
          · exact Or.inr ⟨hmem.resolve_left hname, fun h => hseen (h.resolve_left hname)⟩

theorem parameterName?_report?_eq_some_iff {expression : Expr} {name : String} :
    expression.report?.bind Report.parameterName? = some name ↔
      ∃ type, expression = .parameter name type := by
  cases expression <;> simp [Expr.report?, Report.parameterName?]

/-- A name is reported exactly if a parameter of that name stands somewhere in
the query text. -/
theorem Block.mem_parameterNames_iff {block : Block} {name : String} :
    name ∈ block.parameterNames ↔ ∃ type, .parameter name type ∈ block.nodes := by
  rw [parameterNames, DocumentQuery.parameterNames, mem_distinctAfter_iff, reportedNames,
    reports_eq, List.filterMap_filterMap]
  simp only [List.mem_filterMap, parameterName?_report?_eq_some_iff, List.not_mem_nil,
    not_false_eq_true, and_true]
  constructor
  · rintro ⟨_, hmem, type, rfl⟩
    exact ⟨type, hmem⟩
  · rintro ⟨type, hmem⟩
    exact ⟨_, hmem, type, rfl⟩

end DocumentQuery
