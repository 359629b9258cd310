import DocumentQuery.Proofs.Freeze
import DocumentQuery.Proofs.Walking
import DocumentQuery.Render
/-!
# The clauses of a text and the columns that it shows

The text of a block is put together from its clauses (`Block.render_eq`). It
shows settled columns, and of a pending projection the columns that freezing
would make of it (`Projection.render_eq`). Freezing leaves out what is the same as
something before it. The same has the same parameters
(`Projected.reportedNames_eq_of_same`), so none gets lost with it
(`Projection.mem_reportedNames_preview_iff`). The aliases of `Block.aliased` are
those that the text has after `AS` (`Block.render_columns`).
-/

namespace DocumentQuery

/-! ## The parameters of what is the same -/

mutual

/-- A constant has no name, so it makes no difference in which form it is. -/
theorem Expr.reportedNames_canonical : ∀ expression : Expr,
    reportedNames expression.canonical.reports = reportedNames expression.reports
  | .constant _ _ => rfl
  | .parameter _ _ => rfl
  | .binary _ left right _ => by
      rw [Expr.canonical, Expr.reports, Expr.reports, reportedNames_append, reportedNames_append,
        left.reportedNames_canonical, right.reportedNames_canonical]
  | .unary _ operand _ => operand.reportedNames_canonical
  | .property base _ _ => base.reportedNames_canonical
  | .item array index _ => by
      rw [Expr.canonical, Expr.reports, Expr.reports, reportedNames_append, reportedNames_append,
        array.reportedNames_canonical, index.reportedNames_canonical]
  | .call _ arguments _ => reportedNames_canonicalExprs arguments
  | .inlineArray items => reportedNames_canonicalExprs items
  | .membership item values _ => by
      rw [Expr.canonical, Expr.reports, Expr.reports, reportedNames_append, reportedNames_append,
        item.reportedNames_canonical, reportedNames_canonicalExprs]
  | .subquery _ block => block.reportedNames_canonical
  | .scalarReference _ _ => rfl
  | .objectReference _ _ => rfl
  | .fragment _ => rfl

theorem reportedNames_canonicalExprs : ∀ expressions : List Expr,
    reportedNames (reportsOfExprs (canonicalExprs expressions)) =
      reportedNames (reportsOfExprs expressions)
  | [] => rfl
  | expression :: rest => by
      rw [canonicalExprs, reportsOfExprs, reportsOfExprs, reportedNames_append,
        reportedNames_append, expression.reportedNames_canonical,
        reportedNames_canonicalExprs rest]

theorem reportedNames_canonicalOptional : ∀ optional : Option Expr,
    reportedNames (reportsOfOptional (canonicalOptional optional)) =
      reportedNames (reportsOfOptional optional)
  | none => rfl
  | some expression => expression.reportedNames_canonical

theorem Projected.reportedNames_canonical : ∀ projected : Projected,
    reportedNames projected.canonical.reports = reportedNames projected.reports
  | .scalar value => value.reportedNames_canonical
  | .object _ access => access.reportedNames_canonical

theorem reportedNames_canonicalEntries : ∀ entries : List (Member × Projected),
    reportedNames (reportsOfEntries (canonicalEntries entries)) =
      reportedNames (reportsOfEntries entries)
  | [] => rfl
  | (_, projected) :: rest => by
      rw [canonicalEntries, reportsOfEntries, reportsOfEntries, reportedNames_append,
        reportedNames_append, projected.reportedNames_canonical,
        reportedNames_canonicalEntries rest]

theorem reportedNames_canonicalColumns : ∀ columns : List Column,
    reportedNames (reportsOfColumns (canonicalColumns columns)) =
      reportedNames (reportsOfColumns columns)
  | [] => rfl
  | ⟨projected, _⟩ :: rest => by
      rw [canonicalColumns, reportsOfColumns, reportsOfColumns, reportedNames_append,
        reportedNames_append, projected.reportedNames_canonical,
        reportedNames_canonicalColumns rest]

theorem Projection.reportedNames_canonical : ∀ projection : Projection,
    reportedNames projection.canonical.reports = reportedNames projection.reports
  | .pending ⟨entries⟩ => reportedNames_canonicalEntries entries
  | .frozen columns _ => reportedNames_canonicalColumns columns

theorem Payload.reportedNames_canonical : ∀ payload : Payload,
    reportedNames payload.canonical.reports = reportedNames payload.reports
  | .root _ _ => rfl
  | .select block => block.reportedNames_canonical
  | .collection expression => expression.reportedNames_canonical
  | .raw _ _ => rfl

theorem reportedNames_canonicalSources : ∀ sources : List Source,
    reportedNames (reportsOfSources (canonicalSources sources)) =
      reportedNames (reportsOfSources sources)
  | [] => rfl
  | ⟨payload, _, _⟩ :: rest => by
      rw [canonicalSources, reportsOfSources, reportsOfSources, reportedNames_append,
        reportedNames_append, payload.reportedNames_canonical,
        reportedNames_canonicalSources rest]

theorem reportedNames_canonicalSortKeys : ∀ keys : List SortKey,
    reportedNames (reportsOfSortKeys (canonicalSortKeys keys)) =
      reportedNames (reportsOfSortKeys keys)
  | [] => rfl
  | ⟨expression, _⟩ :: rest => by
      rw [canonicalSortKeys, reportsOfSortKeys, reportsOfSortKeys, reportedNames_append,
        reportedNames_append, expression.reportedNames_canonical,
        reportedNames_canonicalSortKeys rest]

theorem Block.reportedNames_canonical : ∀ block : Block,
    reportedNames block.canonical.reports = reportedNames block.reports
  | ⟨sources, projection, predicate, orderings, limit, offset, _, _, _, _⟩ => by
      simp only [Block.canonical, Block.reports, reportedNames_append,
        projection.reportedNames_canonical, reportedNames_canonicalSources sources,
        reportedNames_canonicalOptional predicate, reportedNames_canonicalSortKeys orderings,
        reportedNames_canonicalOptional offset, reportedNames_canonicalOptional limit]

end

theorem Projected.reportedNames_eq_of_same {a b : Projected} (h : a.same b = true) :
    reportedNames a.reports = reportedNames b.reports := by
  rw [← a.reportedNames_canonical, (same_iff a b).mp h, b.reportedNames_canonical]

/-! ## The clauses of a text -/

theorem renderExprs_eq (width : Nat) (expressions : List Expr) :
    renderExprs width expressions = expressions.map (Expr.render width) := by
  induction expressions with
  | nil => rfl
  | cons expression rest ih => rw [renderExprs, ih, List.map_cons]

theorem renderSources_eq (width : Nat) (sources : List Source) :
    renderSources width sources = sources.map (Source.render width) := by
  induction sources with
  | nil => rfl
  | cons source rest ih =>
      cases source
      rw [renderSources, ih, List.map_cons, Source.render]

theorem renderSortKeys_eq (width : Nat) (keys : List SortKey) :
    renderSortKeys width keys = keys.map (SortKey.render width) := by
  induction keys with
  | nil => rfl
  | cons key rest ih =>
      cases key
      rw [renderSortKeys, ih, List.map_cons, SortKey.render]

theorem Block.render_eq (width : Nat) (block : Block) :
    block.render width = "\n".intercalate
      ([selectText block.distinct block.singleValue (block.projection.render width)] ++
        sourceLines (renderSources width block.sources) ++
        predicateLine (renderOptional width block.predicate) ++
        orderingLine (renderSortKeys width block.orderings) ++
        pagingLine (renderOptional width block.offset) (renderOptional width block.limit)) := by
  cases block
  rfl

/-! ## Columns -/

namespace Projection

/-- The columns that the text of a block shows. -/
def preview (projection : Projection) : List Column :=
  (projection.freeze defaultColumnAlias).columns

/-- Whether one position is bound before freezing, or one column is there
afterwards. -/
def Single : Projection → Prop
  | .pending mapping => mapping.entries.length = 1
  | .frozen columns _ => columns.length = 1

end Projection

theorem renderColumns_eq (width : Nat) (columns : List Column) :
    renderColumns width columns =
      columns.map fun column => (column, column.expression.render width) := by
  induction columns with
  | nil => rfl
  | cons column rest ih =>
      cases column
      rw [renderColumns, ih, List.map_cons]

theorem map_columnText (width : Nat) (columns : List Column) :
    (columns.map fun column => (column, column.expression.render width)).map
        (fun column => columnText column.1 column.2) =
      columns.map fun column => columnText column (column.expression.render width) := by
  rw [List.map_map]
  rfl

/-- The columns that are there already are not shown again. -/
theorem map_freezeFrom (width : Nat) (columns : List Column) (bindings : Mapping Nat)
    (entries : List (Member × Projected)) :
    (freezeFrom defaultColumnAlias columns bindings entries).1.map
        (fun column => (column, column.expression.render width)) =
      columns.map (fun column => (column, column.expression.render width)) ++
        renderEntries width columns entries := by
  induction entries generalizing columns bindings with
  | nil => simp [freezeFrom, renderEntries]
  | cons entry rest ih =>
      obtain ⟨member, projected⟩ := entry
      rw [freezeFrom, ih, renderEntries, pushColumn]
      cases columnOf? projected columns with
      | some number => rfl
      | none => simp [newColumn]

namespace Projection

/-- The text shows the columns that freezing would make. -/
theorem render_eq (width : Nat) (projection : Projection) :
    projection.render width =
      projection.preview.map fun column => (column, column.expression.render width) := by
  cases projection with
  | pending mapping => exact (map_freezeFrom width [] .empty mapping.entries).symm
  | frozen columns bindings => exact renderColumns_eq width columns

theorem exists_preview_eq_of_single {projection : Projection} (h : projection.Single) :
    ∃ column, projection.preview = [column] := by
  cases projection with
  | pending mapping =>
      obtain ⟨⟨member, projected⟩, hentries⟩ := List.length_eq_one_iff.mp h
      refine ⟨newColumn [] projected member.lastName? defaultColumnAlias, ?_⟩
      rw [preview, freeze, hentries]
      rfl
  | frozen columns bindings => exact List.length_eq_one_iff.mp h

theorem mem_expressions_of_mem_preview {projection : Projection} {column : Column}
    (h : column ∈ projection.preview) :
    column.expression.expression ∈ projection.expressions := by
  cases projection with
  | pending mapping =>
      rcases mem_freezeFrom h with hold | ⟨entry, hentry, hshown⟩
      · exact absurd hold List.not_mem_nil
      · rw [hshown]
        exact List.mem_map_of_mem (List.mem_map_of_mem hentry)
  | frozen columns bindings => exact List.mem_map_of_mem h

theorem mem_reportedNames_preview_iff (projection : Projection) (name : String) :
    name ∈ reportedNames (reportsOfColumns projection.preview) ↔
      name ∈ reportedNames projection.reports := by
  cases projection with
  | pending mapping =>
      rw [reports, reportsOfColumns_eq, reportsOfEntries_eq, reportedNames_flatMap,
        reportedNames_flatMap, List.mem_flatMap, List.mem_flatMap]
      constructor
      · rintro ⟨column, hcolumn, hname⟩
        rcases mem_freezeFrom hcolumn with hold | ⟨entry, hentry, hshown⟩
        · exact absurd hold List.not_mem_nil
        · exact ⟨entry, hentry, hshown ▸ hname⟩
      · rintro ⟨entry, hentry, hname⟩
        have hshown : ∃ column ∈ (Projection.pending mapping).preview,
            column.expression.same entry.2 = true := exists_mem_freezeFrom hentry
        obtain ⟨column, hcolumn, hsame⟩ := hshown
        rw [← Projected.reportedNames_eq_of_same hsame] at hname
        exact ⟨column, hcolumn, hname⟩
  | frozen columns bindings => rfl

end Projection

/-- The columns that are shown with an alias. -/
def Block.aliased (block : Block) : List Column :=
  if block.singleValue then []
  else block.projection.preview.filter fun column =>
    column.expression.accessName? ≠ some column.aliasName

theorem Block.mem_aliased_iff {block : Block} (h : block.singleValue = false) {column : Column} :
    column ∈ block.aliased ↔ column ∈ block.projection.preview ∧
      column.expression.accessName? ≠ some column.aliasName := by
  simp [aliased, h]

/-- How a column is written: with its alias after `AS` if it is one of those that
are shown with an alias, and else as its expression alone. -/
inductive Block.Writes (width : Nat) (block : Block) : Column → String → Prop where
  | aliased {column : Column} (h : column ∈ block.aliased) :
      Writes width block column (column.expression.render width ++ " AS " ++ column.aliasName)
  | plain {column : Column} (h : column ∉ block.aliased) :
      Writes width block column (column.expression.render width)

theorem Block.writes_columnText {block : Block} (hlist : block.singleValue = false) (width : Nat)
    {column : Column} (hshown : column ∈ block.projection.preview) :
    block.Writes width column (columnText column (column.expression.render width)) := by
  unfold columnText
  split
  · rename_i hknown
    exact .plain fun haliased => ((mem_aliased_iff hlist).mp haliased).2 hknown
  · rename_i hother
    exact .aliased ((mem_aliased_iff hlist).mpr ⟨hshown, hother⟩)

/-- The columns that are selected: the first one alone if it is selected as a value. -/
def Block.selected (block : Block) : List Column :=
  if block.singleValue then block.projection.preview.take 1 else block.projection.preview

theorem Block.selectText_eq (width : Nat) (block : Block) :
    ∃ items, List.Forall₂ (block.Writes width) block.selected items ∧
      selectText block.distinct block.singleValue (block.projection.render width) =
        "SELECT " ++ (if block.distinct then "DISTINCT " else "") ++
          (if block.singleValue then "VALUE " else "") ++
            if items.isEmpty then "1" else Text.commaSeparated items := by
  rw [Projection.render_eq, selected]
  cases hvalue : block.singleValue with
  | true =>
      have hnone : block.aliased = [] := by simp [aliased, hvalue]
      cases block.projection.preview with
      | nil => exact ⟨[], .nil, rfl⟩
      | cons first rest =>
          refine ⟨[first.expression.render width], .cons (.plain (by simp [hnone])) .nil, ?_⟩
          simp [selectText, Text.commaSeparated]
  | false =>
      refine ⟨block.projection.preview.map fun column =>
        columnText column (column.expression.render width), ?_, ?_⟩
      · exact List.forall₂_map_right_iff.mpr (List.forall₂_same.mpr fun column hshown =>
          writes_columnText hvalue width hshown)
      · cases block.projection.preview with
        | nil => rfl
        | cons first rest => simp [selectText, Function.comp_def]

/-- The first line of a text lists the columns that are selected, each with its
alias after `AS` exactly if it is one of `aliased`. -/
theorem Block.render_columns (width : Nat) (block : Block) :
    ∃ items, List.Forall₂ (block.Writes width) block.selected items ∧
      block.render width = "\n".intercalate
        (["SELECT " ++ (if block.distinct then "DISTINCT " else "") ++
            (if block.singleValue then "VALUE " else "") ++
              if items.isEmpty then "1" else Text.commaSeparated items] ++
          sourceLines (renderSources width block.sources) ++
          predicateLine (renderOptional width block.predicate) ++
          orderingLine (renderSortKeys width block.orderings) ++
          pagingLine (renderOptional width block.offset) (renderOptional width block.limit)) := by
  obtain ⟨items, hitems, htext⟩ := block.selectText_eq width
  exact ⟨items, hitems, by rw [render_eq, htext]⟩

end DocumentQuery
