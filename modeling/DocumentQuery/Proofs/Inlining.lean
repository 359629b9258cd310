import DocumentQuery.Command
import DocumentQuery.Proofs.Rewriting
import DocumentQuery.Proofs.Walking
import Mathlib.Tactic.Choose
/-!
# Inlining and the parameters that are left

Inlining turns the parameters that have a value into constants and leaves
everything else that a walk reports (`Block.reported_inline`). This holds of
blocks that are not valid too: an array that is wrapped anew is reported from
inside the wrapping. Only a position that is bound twice would lose what it was
bound to last. So the parameters that are left are those that were reported and
have no value, in the same order (`Block.parameterNames_inline`).

`Inlines` says of the visit of a node that it succeeds, and what is reported of
the node that it leaves, be it a new one or the old one.
-/

namespace DocumentQuery

variable {α β γ : Type}

/-! ## What is reported -/

/-- What a log shows after inlining for what is reported before it. -/
def Report.inlined (values : Values) : Report → Event
  | .parameter name _ => if (values name).isSome then .constant else .parameter name
  | report => report.event

/-- The visit of a node succeeds, and a log shows what it leaves as it shows the
node, with constants in place of the parameters that have a value. -/
def Inlines (values : Values) (report : α → List Report) (visit : Revising Unit (Option α))
    (old : α) : Prop :=
  ∃ answer, visit = pure answer ∧
    (report (answer.getD old)).map Report.event = (report old).map (Report.inlined values)

section Inlines

variable {values : Values} {report : α → List Report} {visit : Revising Unit (Option α)} {old : α}

theorem Inlines.keep
    (h : (report old).map (Report.inlined values) = (report old).map Report.event) :
    Inlines values report (pure none) old :=
  ⟨none, rfl, h.symm⟩

/-- A node around a part, of which something is reported before the part. -/
theorem Inlines.map (h : Inlines values report visit old) (reportNode : β → List Report)
    (before : α → List Report) (node : α → β)
    (hbefore : ∀ new, (before new).map Report.event = (before old).map (Report.inlined values))
    (hreport : ∀ part, reportNode (node part) = before part ++ report part) :
    Inlines values reportNode (visit >>= fun answer => pure (answer.map node)) (node old) := by
  obtain ⟨answer, hvisit, hanswer⟩ := h
  refine ⟨answer.map node, by rw [hvisit, pure_bind], ?_⟩
  rw [Option.getD_map, hreport, hreport, List.map_append, List.map_append, hbefore, hanswer]

/-- A node of two parts, of which nothing else is reported. -/
theorem Inlines.pair {reportSecond : β → List Report} {second : Revising Unit (Option β)}
    {oldSecond : β} (h : Inlines values report visit old)
    (hsecond : Inlines values reportSecond second oldSecond) (reportNode : γ → List Report)
    (node : α → β → γ) (hreport : ∀ a b, reportNode (node a b) = report a ++ reportSecond b) :
    Inlines values reportNode
      (visit >>= fun a => second >>= fun b => pure (rebuildPair node old oldSecond a b))
      (node old oldSecond) := by
  obtain ⟨answer, hvisit, hanswer⟩ := h
  obtain ⟨other, hother, hotherAnswer⟩ := hsecond
  refine ⟨rebuildPair node old oldSecond answer other, by rw [hvisit, hother]; rfl, ?_⟩
  rw [getD_rebuildPair, hreport, hreport, List.map_append, List.map_append, hanswer,
    hotherAnswer]

/-- A walk that asks the items of a list one after the other has an answer for
each of them. -/
theorem exists_answers (walkAll : List α → Revising Unit (List (Option β))) {items : List α}
    {visit : α → Revising Unit (Option β)} {part : α → β} {report : β → List Report}
    (hnil : walkAll [] = pure [])
    (hcons : ∀ item rest, walkAll (item :: rest) =
      visit item >>= fun first => walkAll rest >>= fun more => pure (first :: more))
    (h : ∀ item ∈ items, Inlines values report (visit item) (part item)) :
    ∃ answer : α → Option β, walkAll items = pure (items.map answer) ∧
      ∀ item ∈ items, (report ((answer item).getD (part item))).map Report.event =
        (report (part item)).map (Report.inlined values) := by
  choose! answer hvisit hanswer using h
  exact ⟨answer, walkAll_pure hnil hcons hvisit, hanswer⟩

theorem flatMap_inlined {items : List α} {new : α → α} {report : α → List Report}
    (h : ∀ item ∈ items,
      (report (new item)).map Report.event = (report item).map (Report.inlined values)) :
    ((items.map new).flatMap report).map Report.event =
      (items.flatMap report).map (Report.inlined values) := by
  rw [List.flatMap_map, List.map_flatMap, List.map_flatMap, List.flatMap_def, List.flatMap_def,
    List.map_congr_left h]

end Inlines

/-! ## Expressions -/

section Visits

variable (values : Values)

/-- The visitor that inlines values. -/
abbrev inlining : Visitor Unit :=
  (inliner values).visitor

def Expr.InlinesWell (expression : Expr) : Prop :=
  Inlines values Expr.reports (expression.visit (inlining values)) expression

def Block.InlinesWell (block : Block) : Prop :=
  Inlines values Block.reports (block.visit (inlining values)) block

variable {values}

/-- What is reported before a list of expressions may show how many there are,
because their number stays as well. -/
theorem inlines_exprs {expressions : List Expr} (before : List Expr → List Report)
    (hbefore : ∀ new, new.length = expressions.length →
      (before new).map Report.event = (before expressions).map (Report.inlined values))
    (h : ∀ expression ∈ expressions, expression.InlinesWell values) :
    Inlines values (fun new => before new ++ reportsOfExprs new)
      (visitExprs (inlining values) expressions >>= fun new =>
        pure (rebuildList expressions new)) expressions := by
  obtain ⟨answer, hvisit, hanswer⟩ :=
    exists_answers (visitExprs (inlining values)) rfl (fun _ _ => rfl) h
  refine ⟨_, by rw [hvisit, pure_bind], ?_⟩
  dsimp only
  rw [getD_rebuildList, List.map_append, List.map_append, hbefore _ (List.length_map _),
    reportsOfExprs_eq, reportsOfExprs_eq, flatMap_inlined hanswer]

/-- A parameter gives way to its value, and any other expression is visited in
its parts. -/
theorem Expr.inlines_of_parts {expression : Expr}
    (hparts : ∀ part ∈ expression.parts, part.InlinesWell values)
    (hblock : ∀ block ∈ expression.block?, block.InlinesWell values) :
    expression.InlinesWell values := by
  cases expression with
  | parameter name type =>
      refine ⟨(values name).map ofJson, ?_, ?_⟩
      · rw [visit]
        cases hvalue : values name <;>
          simp [Rule.visitor, Rule.applyOr, inliner, Rule.replacing, inlined?, hvalue]
      · cases hvalue : values name <;> simp [reports, Report.event, Report.inlined, ofJson, hvalue]
  | binary operator left right type =>
      have hleft := hparts left (by simp [parts])
      have hright := hparts right (by simp [parts])
      exact hleft.pair hright Expr.reports (Expr.binary operator · · type) fun _ _ => rfl
  | unary operator operand type =>
      have hoperand := hparts operand (by simp [parts])
      exact hoperand.map Expr.reports (fun _ => []) (Expr.unary operator · type) (fun _ => rfl)
        fun _ => rfl
  | property base name type =>
      have hbase := hparts base (by simp [parts])
      exact hbase.map Expr.reports (fun base => [.property base name type])
        (Expr.property · name type) (fun _ => rfl) fun _ => rfl
  | item array index type =>
      have harray := hparts array (by simp [parts])
      have hindex := hparts index (by simp [parts])
      exact harray.pair hindex Expr.reports (Expr.item · · type) fun _ _ => rfl
  | call function arguments type =>
      have harguments := inlines_exprs (fun arguments => [.function function arguments type])
        (fun new hlength => by simp [Report.event, Report.inlined, hlength]) hparts
      have hnode := harguments.map Expr.reports (fun _ => []) (Expr.call function · type)
        (fun _ => rfl) fun _ => rfl
      rw [bind_assoc] at hnode
      exact hnode
  | inlineArray items =>
      have hitems := inlines_exprs (fun _ => []) (fun _ _ => rfl) hparts
      have hnode :=
        hitems.map Expr.reports (fun _ => []) Expr.inlineArray (fun _ => rfl) fun _ => rfl
      rw [bind_assoc] at hnode
      exact hnode
  | membership value list negated =>
      rw [parts, List.forall_mem_cons] at hparts
      have hlist := inlines_exprs (fun _ => []) (fun _ _ => rfl) hparts.2
      have hnode := hparts.1.pair hlist Expr.reports (Expr.membership · · negated) fun _ _ => rfl
      simp only [bind_assoc, pure_bind] at hnode
      exact hnode
  | subquery kind block =>
      have hinner := hblock block rfl
      exact hinner.map Expr.reports (fun block => [.subquery kind block])
        (Expr.subquery kind ·) (fun _ => rfl) fun _ => rfl
  | _ => exact .keep rfl

/-! ## The clauses of a block -/

theorem inlines_projected {projected : Projected} (h : projected.expression.InlinesWell values) :
    Inlines values Projected.reports (projected.visit (inlining values)) projected := by
  cases projected with
  | scalar value =>
      exact h.map Projected.reports (fun _ => []) Projected.scalar (fun _ => rfl) fun _ => rfl
  | object entityType access =>
      exact h.map Projected.reports (fun _ => []) (Projected.object entityType) (fun _ => rfl)
        fun _ => rfl

theorem inlines_projection {projection : Projection}
    (hnodup : ∀ mapping, projection = .pending mapping → mapping.keys.Nodup)
    (h : ∀ expression ∈ projection.expressions, expression.InlinesWell values) :
    Inlines values Projection.reports (projection.visit (inlining values)) projection := by
  cases projection with
  | pending mapping =>
      have hentries : ∀ entry ∈ mapping.entries, Inlines values Projected.reports
          (entry.2.visit (inlining values)) entry.2 := fun entry hentry =>
        inlines_projected (h _ (List.mem_map_of_mem (List.mem_map_of_mem hentry)))
      obtain ⟨answer, hvisit, hanswer⟩ :=
        exists_answers (visitEntries (inlining values)) rfl (fun _ _ => rfl) hentries
      refine ⟨rebuildMapping mapping (mapping.entries.map answer), ?_, ?_⟩
      · rw [Projection.visit, hvisit, pure_bind]
      · rw [getD_rebuildMapping (hnodup mapping rfl), Projection.reports, Projection.reports,
          reportsOfEntries_eq, reportsOfEntries_eq]
        exact flatMap_inlined hanswer
  | frozen columns bindings =>
      have hcolumns : ∀ column ∈ columns, Inlines values Projected.reports
          (column.expression.visit (inlining values)) column.expression :=
        fun column hcolumn => inlines_projected (h _ (List.mem_map_of_mem hcolumn))
      obtain ⟨answer, hvisit, hanswer⟩ := exists_answers (visitColumns (inlining values))
        rfl (fun column _ => by cases column; rfl) hcolumns
      refine ⟨(rebuildColumns columns (columns.map answer)).map (.frozen · bindings), ?_, ?_⟩
      · rw [Projection.visit, hvisit, pure_bind]
      · rw [Option.getD_map, getD_rebuildColumns, Projection.reports, Projection.reports,
          reportsOfColumns_eq, reportsOfColumns_eq]
        exact flatMap_inlined hanswer

/-- An array that is wrapped is reported from inside the wrapping. -/
theorem reports_iterate (array : Expr) (aliasName : String) :
    (Source.iterate array aliasName).payload.reports = array.reports := by
  unfold Source.iterate
  split
  · rfl
  · simp [Payload.reports, Block.ofValue, Block.empty, Block.reports, Projection.reports,
      reportsOfColumns, newColumn, Projected.reports, reportsOfSources, reportsOfOptional,
      reportsOfSortKeys]

theorem inlines_source {source : Source}
    (harray : ∀ array ∈ source.collection?, array.InlinesWell values)
    (hblock : ∀ block ∈ source.block?, block.InlinesWell values) :
    Inlines values (·.payload.reports)
      ((inlining values).onSource source
        (source.payload.visit (inlining values) source.aliasName source.iterated))
      source := by
  rcases source with ⟨payload, aliasName, iterated⟩
  cases payload with
  | root entityType container => exact .keep rfl
  | select block =>
      exact (hblock block rfl).map (fun source : Source => source.payload.reports) (fun _ => [])
        (fun block => Source.mk (.select block) aliasName iterated) (fun _ => rfl) fun _ => rfl
  | collection array =>
      obtain ⟨answer, hvisit, hanswer⟩ := harray array rfl
      refine ⟨answer.map (Source.iterate · aliasName), ?_, ?_⟩
      · change (array.visit (inlining values) >>= fun new =>
          pure (new.map (Source.iterate · aliasName))) = _
        rw [hvisit, pure_bind]
      · cases answer with
        | none => exact hanswer
        | some new =>
            have hsame := reports_iterate new aliasName
            exact (congrArg (List.map Report.event) hsame).trans hanswer
  | raw entityType text => exact .keep rfl

theorem inlines_sources {sources : List Source}
    (harray : ∀ source ∈ sources, ∀ array ∈ source.collection?, array.InlinesWell values)
    (hblock : ∀ source ∈ sources, ∀ block ∈ source.block?, block.InlinesWell values) :
    Inlines values reportsOfSources
      (visitSources (inlining values) sources >>= fun new =>
        pure (rebuildList sources new)) sources := by
  obtain ⟨answer, hvisit, hanswer⟩ := exists_answers (visitSources (inlining values))
    rfl (fun source _ => by cases source; rfl)
    fun source hsource => inlines_source (harray source hsource) (hblock source hsource)
  refine ⟨_, by rw [hvisit, pure_bind], ?_⟩
  rw [getD_rebuildList, reportsOfSources_eq, reportsOfSources_eq]
  exact flatMap_inlined hanswer

theorem inlines_sortKeys {keys : List SortKey}
    (h : ∀ key ∈ keys, key.expression.InlinesWell values) :
    Inlines values reportsOfSortKeys
      (visitSortKeys (inlining values) keys >>= fun new =>
        pure (rebuildSortKeys keys new)) keys := by
  obtain ⟨answer, hvisit, hanswer⟩ := exists_answers (visitSortKeys (inlining values))
    rfl (fun key _ => by cases key; rfl) h
  refine ⟨_, by rw [hvisit, pure_bind], ?_⟩
  rw [getD_rebuildSortKeys, reportsOfSortKeys_eq, reportsOfSortKeys_eq]
  exact flatMap_inlined hanswer

/-- An optional expression stays if there is no answer for it. -/
theorem inlines_optional {optional : Option Expr}
    (h : ∀ expression ∈ optional, expression.InlinesWell values) :
    ∃ answer, visitOptional (inlining values) optional = pure answer ∧
      (reportsOfOptional (answer <|> optional)).map Report.event =
        (reportsOfOptional optional).map (Report.inlined values) := by
  cases optional with
  | none => exact ⟨none, rfl, rfl⟩
  | some expression =>
      obtain ⟨answer, hvisit, hanswer⟩ := h expression rfl
      refine ⟨answer, hvisit, ?_⟩
      cases answer <;> exact hanswer

/-! ## Blocks -/

theorem Block.inlines_of_clauses {block : Block}
    (hnodup : ∀ mapping, block.projection = .pending mapping → mapping.keys.Nodup)
    (hexpressions : ∀ expression ∈ block.expressions, expression.InlinesWell values)
    (hblocks : ∀ inner ∈ block.sourceBlocks, inner.InlinesWell values) :
    block.InlinesWell values := by
  simp only [expressions, List.forall_mem_append, List.mem_filterMap, List.forall_mem_map,
    Option.mem_toList] at hexpressions
  obtain ⟨⟨⟨⟨⟨hprojected, harrays⟩, hpredicate⟩, hkeys⟩, hoffset⟩, hlimit⟩ := hexpressions
  obtain ⟨projection, hvisitProjection, hprojection⟩ := inlines_projection hnodup hprojected
  obtain ⟨sources, hvisitSources, hsources⟩ := inlines_sources
    (fun source hsource array harray => harrays array ⟨source, hsource, harray⟩)
    fun source hsource inner hinner =>
      hblocks inner (List.mem_filterMap.mpr ⟨source, hsource, hinner⟩)
  obtain ⟨predicate, hvisitPredicate, hpredicate⟩ := inlines_optional hpredicate
  obtain ⟨orderings, hvisitOrderings, horderings⟩ := inlines_sortKeys hkeys
  obtain ⟨offset, hvisitOffset, hoffset⟩ := inlines_optional hoffset
  obtain ⟨limit, hvisitLimit, hlimit⟩ := inlines_optional hlimit
  refine ⟨block.rebuild ⟨projection, sources, predicate, orderings, offset, limit⟩, ?_, ?_⟩
  · have hvisit : block.visit (inlining values) =
        block.visitParts (inlining values) := block.visit_eq _
    rw [hvisit, ← visitParts_eq, hvisitProjection, hvisitSources, hvisitPredicate,
      hvisitOrderings, hvisitOffset, hvisitLimit]
    rfl
  · rw [getD_rebuild, reports_clauses, reports_clauses block]
    simp only [update, hprojection, hsources, hpredicate, horderings, hoffset, hlimit,
      List.map_append]

/-- The block and every block that is nested in it, at any depth, bind no
position twice. -/
def Block.BindsOnce (block : Block) : Prop :=
  ∀ inner, Relation.ReflTransGen Nests block inner → ∀ mapping,
    inner.projection = .pending mapping → mapping.duplicate? = none

theorem Block.BindsOnce.of_nests {block inner : Block} (h : block.BindsOnce)
    (hnests : block.Nests inner) : inner.BindsOnce :=
  fun deeper hdeeper => h deeper (hdeeper.head hnests)

theorem Block.BindsOnce.inlines {block : Block} (h : block.BindsOnce) :
    block.InlinesWell values := by
  have houtward : PassesOutward
      (fun expression => (∀ inner ∈ expression.subqueries, inner.BindsOnce) →
        expression.InlinesWell values)
      (fun block => block.BindsOnce → block.InlinesWell values) := by
    constructor
    · intro expression hparts hblock honce
      rw [expression.subqueries_eq] at honce
      simp only [List.mem_append, List.mem_flatMap, Option.mem_toList] at honce
      refine Expr.inlines_of_parts (fun part hpart => hparts part hpart fun inner hinner => ?_)
        fun block hmem => hblock block hmem (honce block (Or.inl hmem))
      exact honce inner (Or.inr ⟨part, hpart, hinner⟩)
    · intro block hexpressions hblocks honce
      refine Block.inlines_of_clauses
        (fun mapping hmapping => ?_)
        (fun expression hexpression => hexpressions expression hexpression fun inner hinner => ?_)
        fun inner hinner => hblocks inner hinner (honce.of_nests (.of_sourceBlocks hinner))
      · exact (OrderedMap.duplicate?_eq_none_iff mapping).mp (honce block .refl mapping hmapping)
      · exact honce.of_nests (.of_expressions hexpression hinner)
  exact houtward.all_block block h

end Visits

/-! ## The names that are left -/

theorem distinctAfter_filter (keep : String → Bool) (seen names : List String) :
    distinctAfter (seen.filter keep) (names.filter keep) =
      (distinctAfter seen names).filter keep := by
  induction names generalizing seen with
  | nil => rfl
  | cons name rest ih =>
      cases hkeep : keep name with
      | false =>
          rw [List.filter_cons_of_neg (by simp [hkeep]), distinctAfter]
          split
          · exact ih seen
          · have hseen := ih (name :: seen)
            rw [List.filter_cons_of_neg (by simp [hkeep])] at hseen
            rw [List.filter_cons_of_neg (by simp [hkeep]), hseen]
      | true =>
          have hmem : name ∈ seen.filter keep ↔ name ∈ seen := by
            simp [List.mem_filter, hkeep]
          rw [List.filter_cons_of_pos hkeep, distinctAfter, distinctAfter]
          by_cases hseen : name ∈ seen
          · rw [if_pos hseen, if_pos (hmem.mpr hseen)]
            exact ih seen
          · have hrest := ih (name :: seen)
            rw [List.filter_cons_of_pos hkeep] at hrest
            rw [if_neg hseen, if_neg (mt hmem.mp hseen), List.filter_cons_of_pos hkeep, hrest]

def Event.parameterName? : Event → Option String
  | .parameter name => some name
  | _ => none

/-- The names of the parameters can be read off a log as well. -/
theorem reportedNames_eq (reports : List Report) :
    reportedNames reports = (reports.map Report.event).filterMap Event.parameterName? := by
  rw [reportedNames, List.filterMap_map]
  refine List.filterMap_congr fun report _ => ?_
  rcases report with _ | _ | _ | _ | _ | expression
  case leaf => cases expression <;> rfl
  all_goals rfl

theorem parameterName?_inlined (values : Values) (report : Report) :
    (report.inlined values).parameterName? =
      report.parameterName?.filter fun name => (values name).isNone := by
  cases report with
  | parameter name type =>
      cases hvalue : values name <;>
        simp [Report.inlined, Report.parameterName?, Event.parameterName?, Option.filter, hvalue]
  | leaf expression => cases expression <;> rfl
  | _ => rfl

namespace Block

/-- Inlining succeeds, and leaves of what is reported all but the parameters that
have a value. -/
theorem reported_inline (values : Values) {block : Block} (h : block.BindsOnce) :
    ∃ inlined, block.inline values = .ok inlined ∧
      inlined.walk = block.reports.map (Report.inlined values) := by
  obtain ⟨answer, hvisit, hanswer⟩ : block.InlinesWell values := h.inlines
  refine ⟨answer.getD block, ?_, hanswer⟩
  rw [inline, inline?, hvisit]
  rfl

theorem parameterNames_of_walk {values : Values} {block inlined : Block}
    (h : inlined.walk = block.reports.map (Report.inlined values)) :
    inlined.parameterNames = block.parameterNames.filter fun name => (values name).isNone := by
  have hnames : reportedNames inlined.reports =
      (reportedNames block.reports).filter fun name => (values name).isNone := by
    rw [reportedNames_eq, ← walk, h, List.filterMap_map, reportedNames, List.filter_filterMap]
    exact List.filterMap_congr fun report _ => parameterName?_inlined values report
  rw [parameterNames, DocumentQuery.parameterNames, hnames]
  exact distinctAfter_filter _ [] _

/-- The parameters of a block in which known values are inlined are those
without a value, in the order that they had. The command reports the same
parameters as missing whether values are inlined or not. -/
theorem parameterNames_inline (values : Values) (block : Block)
    (honce : ∀ inner, Relation.ReflTransGen Nests block inner → ∀ mapping,
      inner.projection = .pending mapping → mapping.duplicate? = none) :
    ∃ inlined, block.inline values = .ok inlined ∧
      inlined.parameterNames =
        block.parameterNames.filter (fun name => (values name).isNone) ∧
      Command.unboundLine values inlined = Command.unboundLine values block := by
  obtain ⟨inlined, hinline, hwalk⟩ := reported_inline values honce
  have hnames := parameterNames_of_walk hwalk
  refine ⟨inlined, hinline, hnames, ?_⟩
  rw [Command.unboundLine, Command.unboundLine, hnames, List.filter_filter]
  simp only [Bool.and_self]

/-- A block that iterates over a parameter, which the query language does not
know, and asks for another one in a subquery: the array is wrapped when the one
is inlined, and the other is left. -/
theorem parameterNames_inline_wrapped :
    let values := Values.ofList [("ids", .array [])]
    let asked := ofValue (.apply .equal (.parameter "least" .number) (.parameter "ids" .array))
    let block := { projecting (.scalar (.scalarReference "i" .number)) with
      sources := [⟨.collection (.parameter "ids" .array), "i", true⟩]
      predicate := some (.subquery .exists asked) }
    (∀ inner, Relation.ReflTransGen Nests block inner → ∀ mapping,
        inner.projection = .pending mapping → mapping.duplicate? = none) ∧
      ∃ inlined, block.inline values = .ok inlined ∧ inlined.parameterNames = ["least"] ∧
        Command.unboundLine values inlined = Command.unboundLine values block := by
  intro values asked block
  have honce : ∀ inner, Relation.ReflTransGen Nests block inner → ∀ mapping,
      inner.projection = .pending mapping → mapping.duplicate? = none := by
    intro inner hinner mapping hmapping
    rcases Relation.ReflTransGen.cases_head hinner with rfl | ⟨middle, hmiddle, hrest⟩
    · obtain rfl := Projection.pending.inj hmapping
      rfl
    · obtain rfl : middle = asked := List.mem_singleton.mp hmiddle
      rcases Relation.ReflTransGen.cases_head hrest with rfl | ⟨deeper, hdeeper, -⟩
      · cases hmapping
      · exact absurd hdeeper List.not_mem_nil
  obtain ⟨inlined, hinline, hnames, hline⟩ := parameterNames_inline values block honce
  refine ⟨honce, inlined, hinline, ?_, hline⟩
  rw [hnames]
  decide

end Block

end DocumentQuery
