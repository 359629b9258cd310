import DocumentQuery.Config
import DocumentQuery.Proofs.ConstantText
import DocumentQuery.Proofs.Everywhere
import DocumentQuery.Proofs.Invariants
import DocumentQuery.Proofs.Preview
/-!
# The text of a block

Names stand in the text of a block as they are, and so they have to be
identifiers (`Expr.Named`, `Block.Named`). Whatever stands in quotes may be
anything. Then the text is closed in itself (`Block.tokens?_render`), and it shows
the parameters that are reported of the block, unless a value is selected of a
block of several columns (`Block.mem_tokens_render_iff`).

Both follow from one induction over the nesting. It says of an expression and of
a block that the text shows the reported names, provided that they count
(`Expr.shows_of_parts`, `Block.shows_of_clauses`).
-/

namespace DocumentQuery

open Text

/-! ## Names -/

/-- The names that stand in the text of an expression without quotes are
identifiers, and the expression is no query text that is taken over. -/
def Expr.Named : Expr → Prop
  | .parameter name _ => isIdentifier name = true
  | .call function _ _ => isIdentifier function = true
  | .scalarReference aliasName _ => isIdentifier aliasName = true
  | .objectReference _ aliasName => isIdentifier aliasName = true
  | .fragment _ => False
  | _ => True

instance : DecidablePred Expr.Named
  | .constant _ _ => .isTrue trivial
  | .parameter name _ => inferInstanceAs (Decidable (isIdentifier name = true))
  | .binary _ _ _ _ => .isTrue trivial
  | .unary _ _ _ => .isTrue trivial
  | .property _ _ _ => .isTrue trivial
  | .item _ _ _ => .isTrue trivial
  | .call function _ _ => inferInstanceAs (Decidable (isIdentifier function = true))
  | .inlineArray _ => .isTrue trivial
  | .membership _ _ _ => .isTrue trivial
  | .subquery _ _ => .isTrue trivial
  | .scalarReference aliasName _ => inferInstanceAs (Decidable (isIdentifier aliasName = true))
  | .objectReference _ aliasName => inferInstanceAs (Decidable (isIdentifier aliasName = true))
  | .fragment _ => .isFalse id

/-- The name of a container is an identifier, and the rows do not come from
query text that is taken over. -/
def Payload.Named : Payload → Prop
  | .root _ container => isIdentifier container = true
  | .raw _ _ => False
  | _ => True

instance : DecidablePred Payload.Named
  | .root _ container => inferInstanceAs (Decidable (isIdentifier container = true))
  | .select _ => .isTrue trivial
  | .collection _ => .isTrue trivial
  | .raw _ _ => .isFalse id

/-- The names that stand in the text of a block without quotes, those in its
expressions aside, are identifiers. -/
structure Block.Named (block : Block) : Prop where
  sources : ∀ source ∈ block.sources,
    isIdentifier source.aliasName = true ∧ source.payload.Named
  columns : ∀ column ∈ block.aliased, isIdentifier column.aliasName = true

theorem Block.named_iff (block : Block) : block.Named ↔
    (∀ source ∈ block.sources,
      isIdentifier source.aliasName = true ∧ source.payload.Named) ∧
        ∀ column ∈ block.aliased, isIdentifier column.aliasName = true :=
  ⟨fun h => ⟨h.sources, h.columns⟩, fun h => ⟨h.1, h.2⟩⟩

instance (block : Block) : Decidable block.Named :=
  decidable_of_iff' _ block.named_iff

section Shown

variable (faithful : Prop) (width : Nat)

/-- What is asked of a block: its names, and that it selects one column as a
value if the names of all parameters are to be shown. -/
structure Block.Legible (block : Block) : Prop where
  named : block.Named
  single : faithful → block.singleValue = true → block.projection.Single

/-- The text of an expression shows the names that are reported of it. -/
def Expr.ShowsReported (expression : Expr) : Prop :=
  Shows faithful (expression.render width) (reportedNames expression.reports)

def Block.ShowsReported (block : Block) : Prop :=
  Shows faithful (block.render width) (reportedNames block.reports)

end Shown

section Texts

variable {faithful : Prop} {width : Nat}

/-! ## Expressions -/

theorem delimits_enclosed (bracket : Bracket) (text : String) :
    Delimits (bracket.opening ++ text ++ bracket.closing) := by
  intro c hc
  cases bracket <;> simp [Bracket.opening] at hc <;> subst hc <;> rfl

theorem shows_propertyKey (name : String) : Shows faithful (propertyKey name) [] :=
  (Json.shows_quoted name).enclose .square

theorem showsAll_exprs {expressions : List Expr}
    (h : ∀ expression ∈ expressions, expression.ShowsReported faithful width) :
    ShowsAll faithful (renderExprs width expressions)
      (reportedNames (reportsOfExprs expressions)) := by
  rw [renderExprs_eq, reportsOfExprs_eq, reportedNames_flatMap]
  exact .of_forall h

/-- The text of a path begins with the alias that the path starts from, and so
not with a minus sign. -/
theorem Expr.Path.exists_first {path : Expr} (h : path.Path) {B : Block → Prop}
    (hnamed : path.Everywhere Expr.Named B) (width : Nat) :
    ∃ c rest, (path.render width).toList = c :: rest ∧ c ≠ '-' := by
  have hreference : ∀ name : String, isIdentifier name = true →
      ∃ c rest, name.toList = c :: rest ∧ c ≠ '-' := by
    intro name hname
    obtain ⟨c, rest, htext, hc, -⟩ := exists_of_isIdentifier hname
    exact ⟨c, rest, htext, (inert_of_continuesIdentifier hc).ne_minus⟩
  induction h with
  | scalarReference aliasName type => exact hreference aliasName hnamed.self
  | objectReference entityType aliasName => exact hreference aliasName hnamed.self
  | property name type _ ih =>
      obtain ⟨c, rest, htext, hc⟩ := ih (hnamed.part (by simp [parts]))
      exact ⟨c, _, by rw [render, String.toList_append, htext, List.cons_append], hc⟩
  | item index type _ ih =>
      obtain ⟨c, rest, htext, hc⟩ := ih (hnamed.part (by simp [parts]))
      refine ⟨c, rest ++ "[".toList ++ (index.render width).toList ++ "]".toList, ?_, hc⟩
      rw [render, String.toList_append, String.toList_append, String.toList_append, htext,
        List.cons_append, List.cons_append, List.cons_append]

/-- Two minus signs never meet. -/
theorem shows_negated {operand : Expr} {B : Block → Prop}
    (hnamed : operand.Everywhere Expr.Named B) (h : operand.ShowsReported faithful width) :
    Shows faithful (negated operand (operand.render width)) (reportedNames operand.reports) := by
  unfold negated
  split
  · rename_i name type
    have htext : ((Expr.parameter name type).render width).toList = '@' :: name.toList := by
      simp [Expr.render]
    exact h.negate htext (by decide)
  · split
    · rename_i hpath
      obtain ⟨c, rest, htext, hc⟩ := (Expr.path_of_isPath hpath).exists_first hnamed width
      exact h.negate htext hc
    · have htext : "-(" ++ operand.render width ++ ")" =
          "-" ++ ("(" ++ operand.render width ++ ")") := by
        simp [← String.append_assoc]
      rw [htext]
      have hfirst : ("(" ++ operand.render width ++ ")").toList =
          '(' :: ((operand.render width).toList ++ [')']) := by simp
      exact (h.enclose .round).negate hfirst (by decide)

theorem separates_operator (operator : Operator) :
    Separates (" " ++ operator.symbol ++ " ") := by
  cases operator <;> exact ⟨rfl, _, _, rfl, rfl⟩

theorem separates_membership (negated : Bool) :
    Separates (" " ++ (if negated then "NOT " else "") ++ "IN ") := by
  cases negated <;> exact ⟨rfl, _, _, rfl, rfl⟩

theorem Expr.shows_of_parts {expression : Expr}
    (hlegible : expression.Everywhere Expr.Named (Block.Legible faithful))
    (hparts : ∀ part ∈ expression.parts, part.ShowsReported faithful width)
    (hblock : ∀ block ∈ expression.block?, block.ShowsReported faithful width) :
    expression.ShowsReported faithful width := by
  have hname := hlegible.self
  cases expression with
  | constant value type => exact value.shows_compact
  | parameter name type => exact .parameter hname
  | binary operator left right type =>
      have hleft := hparts left (by simp [parts])
      have hright := hparts right (by simp [parts])
      have hboth := (hleft.between (separates_operator operator) hright).enclose .round
      -- regrouped, so that what the parentheses enclose is one text
      have htext : (Expr.binary operator left right type).render width =
          "(" ++ (left.render width ++ (" " ++ operator.symbol ++ " ") ++ right.render width) ++
            ")" := by
        simp [render, String.append_assoc]
      rw [ShowsReported, htext, reports, reportedNames_append]
      exact hboth
  | unary operator operand type =>
      have hoperand := hparts operand (by simp [parts])
      cases operator with
      | not =>
          have htext : (Expr.unary .not operand type).render width =
              "NOT" ++ ("(" ++ operand.render width ++ ")") := by
            simp [render, ← String.append_assoc]
          rw [ShowsReported, htext]
          exact (hoperand.enclose .round).after rfl
      | negate => exact shows_negated (hlegible.part (by simp [parts])) hoperand
  | property base name type =>
      have hbase := hparts base (by simp [parts])
      have hnode := hbase.append (shows_propertyKey name) (delimits_enclosed .square _)
      rw [List.append_nil] at hnode
      exact hnode
  | item array index type =>
      have harray := hparts array (by simp [parts])
      have hindex := hparts index (by simp [parts])
      have hnode := harray.append (hindex.enclose .square) (delimits_enclosed .square _)
      have htext : (Expr.item array index type).render width =
          array.render width ++ ("[" ++ index.render width ++ "]") := by
        simp [render, String.append_assoc]
      rw [ShowsReported, htext, reports, reportedNames_append]
      exact hnode
  | call function arguments type =>
      have harguments := (showsAll_exprs hparts).commaSeparated.enclose .round
      have htext : (Expr.call function arguments type).render width =
          function ++ ("(" ++ commaSeparated (renderExprs width arguments) ++ ")") := by
        simp [render, String.append_assoc]
      rw [ShowsReported, htext]
      exact harguments.after (quiet_of_isIdentifier hname)
  | inlineArray items => exact (showsAll_exprs hparts).commaSeparated.enclose .square
  | membership value values negated =>
      rw [parts, List.forall_mem_cons] at hparts
      have hvalues := (showsAll_exprs hparts.2).commaSeparated.enclose .round
      have hnode := hparts.1.between (separates_membership negated) hvalues
      have htext : (Expr.membership value values negated).render width =
          value.render width ++ (" " ++ (if negated then "NOT " else "") ++ "IN ") ++
            ("(" ++ commaSeparated (renderExprs width values) ++ ")") := by
        have hopening : "IN (" = "IN " ++ "(" := rfl
        simp only [render, hopening, String.append_assoc]
      rw [ShowsReported, htext, reports, reportedNames_append]
      exact hnode
  | subquery kind block =>
      have hinner := (hblock block rfl).nest width
      cases kind with
      | array => exact hinner.after rfl
      | «exists» => exact hinner.after rfl
      | scalar => exact hinner
  | scalarReference aliasName type => exact .of_quiet (quiet_of_isIdentifier hname)
  | objectReference entityType aliasName => exact .of_quiet (quiet_of_isIdentifier hname)
  | fragment text => exact hname.elim

/-! ## The clauses of a block -/

theorem shows_columnText {column : Column} {text : String} {names : List String}
    (halias : column.expression.accessName? ≠ some column.aliasName →
      isIdentifier column.aliasName = true)
    (h : Shows faithful text names) : Shows faithful (columnText column text) names := by
  have hword : Separates " AS " := ⟨rfl, _, _, rfl, rfl⟩
  unfold columnText
  split
  · exact h
  · rename_i hprinted
    have halias := halias hprinted
    have hcolumn := h.between hword (.of_quiet (quiet_of_isIdentifier halias))
    rwa [List.append_nil] at hcolumn

theorem Projected.shows {projected : Projected}
    (h : projected.expression.ShowsReported faithful width) :
    Shows faithful (projected.render width) (reportedNames projected.reports) := by
  cases projected <;> exact h

theorem shows_columns {columns : List Column}
    (halias : ∀ column ∈ columns, column.expression.accessName? ≠ some column.aliasName →
      isIdentifier column.aliasName = true)
    (h : ∀ column ∈ columns,
      Shows faithful (column.expression.render width) (reportedNames column.expression.reports)) :
    Shows faithful
      (commaSeparated (columns.map fun column =>
        columnText column (column.expression.render width)))
      (reportedNames (reportsOfColumns columns)) := by
  rw [reportsOfColumns_eq, reportedNames_flatMap]
  exact (ShowsAll.of_forall fun column hcolumn =>
    shows_columnText (halias column hcolumn) (h column hcolumn)).commaSeparated

/-- The first line. Columns that are the same as others are left out, but what is
reported of them is reported of the others; the columns after the value that is
selected are left out with what is reported of them. -/
theorem shows_selectText {block : Block} (hlegible : block.Legible faithful)
    (h : ∀ expression ∈ block.projection.expressions, expression.ShowsReported faithful width) :
    Shows faithful (selectText block.distinct block.singleValue (block.projection.render width))
      (reportedNames block.projection.reports) := by
  have hcolumns : ∀ column ∈ block.projection.preview,
      Shows faithful (column.expression.render width) (reportedNames column.expression.reports) :=
    fun column hcolumn => Projected.shows (h _ (Projection.mem_expressions_of_mem_preview hcolumn))
  have hreported := block.projection.mem_reportedNames_preview_iff
  have hquiet : Quiet ("SELECT " ++ (if block.distinct then "DISTINCT " else "") ++
      (if block.singleValue then "VALUE " else "")) := by
    cases block.distinct <;> cases block.singleValue <;> rfl
  refine Shows.after hquiet ?_
  rw [Projection.render_eq]
  cases hpreview : block.projection.preview with
  | nil =>
      rw [hpreview] at hreported
      have hone : Shows faithful "1" [] := .of_quiet rfl
      exact hone.congr fun _ => hreported
  | cons first rest =>
      rw [hpreview] at hcolumns hreported
      cases hvalue : block.singleValue with
      | true =>
          -- the columns that are left out count only if the names do
          refine (hcolumns first (by simp)).congr fun hfaithful name => ?_
          obtain ⟨column, hsingle⟩ :=
            Projection.exists_preview_eq_of_single (hlegible.single hfaithful hvalue)
          obtain ⟨rfl, rfl⟩ := List.cons.inj (hpreview.symm.trans hsingle)
          rw [← hreported, reportsOfColumns_eq, List.flatMap_singleton]
      | false =>
          have halias : ∀ column ∈ first :: rest,
              column.expression.accessName? ≠ some column.aliasName →
                isIdentifier column.aliasName = true := by
            intro column hcolumn hprinted
            refine hlegible.named.columns column ((Block.mem_aliased_iff hvalue).mpr ⟨?_, hprinted⟩)
            rwa [hpreview]
          have hlist := shows_columns halias hcolumns
          rw [← map_columnText] at hlist
          exact hlist.congr fun _ => hreported

theorem separates_in : Separates " IN " :=
  ⟨rfl, _, _, rfl, rfl⟩

theorem separates_space : Separates " " :=
  ⟨rfl, _, _, rfl, rfl⟩

theorem shows_source {source : Source}
    (hnamed : isIdentifier source.aliasName = true ∧ source.payload.Named)
    (harray : ∀ array ∈ source.collection?, array.ShowsReported faithful width)
    (hblock : ∀ block ∈ source.block?, block.ShowsReported faithful width) :
    Shows faithful (source.render width) (reportedNames source.payload.reports) := by
  rcases source with ⟨payload, aliasName, iterated⟩
  have hpayload : Shows faithful (payload.render width) (reportedNames payload.reports) := by
    cases payload with
    | root entityType container => exact .of_quiet (quiet_of_isIdentifier hnamed.2)
    | select block => exact (hblock block rfl).nest width
    | collection array => exact harray array rfl
    | raw entityType text => exact hnamed.2.elim
  have halias : Shows faithful aliasName [] := .of_quiet (quiet_of_isIdentifier hnamed.1)
  rw [Source.render, sourceText]
  split
  · exact halias.between separates_in hpayload
  · have hsource := hpayload.between separates_space halias
    rwa [List.append_nil] at hsource

theorem showsAll_sourceLines {texts names : List String} (h : ShowsAll faithful texts names) :
    ShowsAll faithful (sourceLines texts) names := by
  have hjoin : Quiet "JOIN " := rfl
  cases h with
  | nil => exact .nil
  | cons hfirst hrest => exact .cons (hfirst.after rfl) (hrest.map_after hjoin)

theorem showsAll_predicateLine {predicate : Option Expr}
    (h : ∀ expression ∈ predicate, expression.ShowsReported faithful width) :
    ShowsAll faithful (predicateLine (renderOptional width predicate))
      (reportedNames (reportsOfOptional predicate)) := by
  cases predicate with
  | none => exact .nil
  | some expression => exact .single ((h expression rfl).after rfl)

theorem shows_sortKey {key : SortKey} (h : key.expression.ShowsReported faithful width) :
    Shows faithful (key.render width) (reportedNames key.expression.reports) := by
  have hword : Separates " DESC" := ⟨rfl, _, _, rfl, rfl⟩
  rw [SortKey.render, sortKeyText]
  split
  · exact h
  · exact h.before hword

theorem showsAll_orderingLine {texts names : List String} (h : ShowsAll faithful texts names) :
    ShowsAll faithful (orderingLine texts) names := by
  cases h with
  | nil => exact .nil
  | cons hfirst hrest => exact .single ((ShowsAll.cons hfirst hrest).commaSeparated.after rfl)

theorem showsAll_pagingLine {offset limit : Option Expr}
    (hoffset : ∀ expression ∈ offset, expression.ShowsReported faithful width)
    (hlimit : ∀ expression ∈ limit, expression.ShowsReported faithful width) :
    ShowsAll faithful (pagingLine (renderOptional width offset) (renderOptional width limit))
      (reportedNames (reportsOfOptional offset) ++ reportedNames (reportsOfOptional limit)) := by
  have hrows : Separates " ROWS" := ⟨rfl, _, _, rfl, rfl⟩
  have hfetch : Separates " ROWS FETCH NEXT " := ⟨rfl, _, _, rfl, rfl⟩
  have honly : Separates " ROWS ONLY" := ⟨rfl, _, _, rfl, rfl⟩
  cases offset with
  | none =>
      cases limit with
      | none => exact .nil
      | some limit =>
          have hzero : Shows faithful ("OFFSET " ++ "0") [] := .of_quiet rfl
          exact .single ((hzero.between hfetch (hlimit limit rfl)).before honly)
  | some offset =>
      have hskipped : Shows faithful ("OFFSET " ++ offset.render width)
          (reportedNames offset.reports) := (hoffset offset rfl).after rfl
      cases limit with
      | none =>
          rw [reportsOfOptional, reportsOfOptional, reportedNames, reportedNames,
            List.filterMap_nil, List.append_nil]
          exact .single (hskipped.before hrows)
      | some limit => exact .single ((hskipped.between hfetch (hlimit limit rfl)).before honly)

theorem Block.shows_of_clauses {block : Block}
    (hlegible : block.Everywhere Expr.Named (Block.Legible faithful))
    (hexpressions : ∀ expression ∈ block.expressions, expression.ShowsReported faithful width)
    (hblocks : ∀ inner ∈ block.sourceBlocks, inner.ShowsReported faithful width) :
    block.ShowsReported faithful width := by
  have hfeed : Separates "\n" := ⟨rfl, _, _, rfl, rfl⟩
  simp only [expressions, List.forall_mem_append, List.mem_filterMap, List.forall_mem_map,
    Option.mem_toList] at hexpressions
  obtain ⟨⟨⟨⟨⟨hprojected, harrays⟩, hpredicate⟩, hkeys⟩, hoffset⟩, hlimit⟩ := hexpressions
  have hselect := shows_selectText hlegible.self hprojected
  have hsources : ShowsAll faithful (renderSources width block.sources)
      (reportedNames (reportsOfSources block.sources)) := by
    rw [renderSources_eq, reportsOfSources_eq, reportedNames_flatMap]
    exact .of_forall fun source hsource =>
      shows_source (hlegible.self.named.sources source hsource)
        (fun array harray => harrays array ⟨source, hsource, harray⟩)
        fun inner hinner => hblocks inner (List.mem_filterMap.mpr ⟨source, hsource, hinner⟩)
  have horderings : ShowsAll faithful (renderSortKeys width block.orderings)
      (reportedNames (reportsOfSortKeys block.orderings)) := by
    rw [renderSortKeys_eq, reportsOfSortKeys_eq, reportedNames_flatMap]
    exact .of_forall fun key hkey => shows_sortKey (hkeys key hkey)
  have hlines := (((ShowsAll.single hselect).append (showsAll_sourceLines hsources)).append
    (showsAll_predicateLine hpredicate)).append (showsAll_orderingLine horderings)
  have hall := (hlines.append (showsAll_pagingLine hoffset hlimit)).intercalate hfeed
  rw [ShowsReported, reports_clauses, render_eq]
  simp only [reportedNames_append]
  rw [List.append_assoc (_ ++ _ ++ _ ++ _)]
  exact hall

/-- The text of a block shows the names that are reported of it, if the names in
it are identifiers and every value is one column. -/
theorem Block.Everywhere.shows {block : Block}
    (h : block.Everywhere Expr.Named (Block.Legible faithful)) (width : Nat) :
    block.ShowsReported faithful width := by
  -- what is asked of the block goes inward while the conclusion comes outward
  have houtward : PassesOutward
      (fun expression => expression.Everywhere Expr.Named (Block.Legible faithful) →
        expression.ShowsReported faithful width)
      (fun block => block.Everywhere Expr.Named (Block.Legible faithful) →
        block.ShowsReported faithful width) := by
    refine ⟨fun expression hparts hblock hlegible => ?_,
      fun block hexpressions hblocks hlegible => ?_⟩
    · exact Expr.shows_of_parts hlegible
        (fun part hpart => hparts part hpart (hlegible.part hpart))
        fun block hmem => hblock block hmem (hlegible.block hmem)
    · exact Block.shows_of_clauses hlegible
        (fun expression hmem => hexpressions expression hmem (hlegible.expression hmem))
        fun inner hmem => hblocks inner hmem (hlegible.sourceBlock hmem)
  exact houtward.all_block block h

end Texts

/-! ## The tokens of a text -/

namespace Block

/-- Whatever the names of properties and the constants are, the text of a block
is closed in itself: every literal ends in the line in which it begins, outside
of literals every bracket is closed by its partner in nesting order, and no
comment begins. The other names have to be identifiers, and no text may be taken
over. The aliases of columns that are shown without alias do not matter. -/
theorem tokens?_render (config : Config) (block : Block)
    (h : block.Everywhere Expr.Named Block.Named) :
    ∃ tokens, tokens? (block.render config.indentWidth) = some tokens ∧ Balanced tokens ∧
      .comment ∉ tokens := by
  have hlegible : block.Everywhere Expr.Named (Block.Legible False) :=
    ⟨h.nodes, fun inner hinner => ⟨h.blocks inner hinner, False.elim⟩⟩
  obtain ⟨tokens, hreads, hlists⟩ := hlegible.shows config.indentWidth
  exact ⟨tokens, hreads.tokens?, hlists.balanced, hlists.closed⟩

/-- A property whose name has a quote, a bracket, a line feed and two minus signs,
twice negated, and a subquery of several lines that compares a parameter with a
negative number. -/
theorem tokens?_render_of_strange_names :
    let title := Expr.property (.objectReference "Blog" "c") "a\"]\n--@x" .string
    let minusOne := Expr.ofJson (.number (.integer (-1)))
    let below := Expr.apply .lessThan (.parameter "least" .number) minusOne
    let asked := { ofValue below with sources := [.root "Tag" "tags" "t"] }
    let block := { Block.empty with
      sources := [.root "Blog" "root" "c"]
      projection := .pending ⟨[(⟨[.field "Title"]⟩, .scalar title)]⟩
      predicate := some (.subquery .exists asked)
      orderings := [⟨.negate (.negate title), true⟩] }
    block.Everywhere Expr.Named Block.Named ∧
      ∃ tokens, tokens? (block.render Config.default.indentWidth) = some tokens ∧
        Balanced tokens ∧ .comment ∉ tokens := by
  intro title minusOne below asked block
  have hblocks : ∀ inner, Relation.ReflTransGen Nests block inner → inner.Named := by
    intro inner hinner
    rcases Relation.ReflTransGen.cases_head hinner with rfl | ⟨middle, hmiddle, hrest⟩
    · decide
    · obtain rfl : middle = asked := List.mem_singleton.mp hmiddle
      rcases Relation.ReflTransGen.cases_head hrest with rfl | ⟨deeper, hdeeper, -⟩
      · decide
      · exact absurd hdeeper List.not_mem_nil
  have heverywhere : block.Everywhere Expr.Named Block.Named := ⟨by decide, hblocks⟩
  exact ⟨heverywhere, tokens?_render .default block heverywhere⟩

/-- If every block that selects a value has one column, or one binding before it
is frozen, the parameters in the text are those that are reported. -/
theorem mem_tokens_render_iff (config : Config) (block : Block)
    (h : block.Everywhere Expr.Named Block.Named)
    (hsingle : ∀ inner, Relation.ReflTransGen Nests block inner →
      inner.singleValue = true → inner.projection.Single) :
    ∃ tokens, tokens? (block.render config.indentWidth) = some tokens ∧
      ∀ name, .parameter name ∈ tokens ↔ name ∈ block.parameterNames := by
  have hlegible : block.Everywhere Expr.Named (Block.Legible True) :=
    ⟨h.nodes, fun inner hinner => ⟨h.blocks inner hinner, fun _ => hsingle inner hinner⟩⟩
  obtain ⟨tokens, hreads, hlists⟩ := hlegible.shows config.indentWidth
  refine ⟨tokens, hreads.tokens?, fun name => ?_⟩
  rw [hlists.parameters trivial, parameterNames, DocumentQuery.parameterNames,
    mem_distinctAfter_iff]
  simp [reportedNames]

/-- A source that is bound to the same parameter in two positions and has a limit,
under a block that selects one value, in which a literal looks like a parameter. -/
theorem mem_tokens_render_iff_of_repeated :
    let shown := Projected.scalar (.parameter "p" .string)
    let paged := { Block.empty with
      sources := [.root "Tag" "tags" "t"]
      projection := .pending ⟨[(⟨[.field "First"]⟩, shown), (⟨[.field "Second"]⟩, shown)]⟩
      limit := some (.parameter "count" .number) }
    let joined := Expr.apply .concat (.ofJson (.string "@q")) (.scalarReference "s" .string)
    let block := { Block.empty with
      sources := [.nested paged "s"]
      projection := .pending ⟨[(.root, .scalar joined)]⟩
      singleValue := true }
    block.Everywhere Expr.Named Block.Named ∧
      (∀ inner, Relation.ReflTransGen Nests block inner →
        inner.singleValue = true → inner.projection.Single) ∧
      ∃ tokens, tokens? (block.render Config.default.indentWidth) = some tokens ∧
        ∀ name, .parameter name ∈ tokens ↔ name ∈ ["p", "count"] := by
  intro shown paged joined block
  have hnested : ∀ inner, Relation.ReflTransGen Nests block inner →
      inner = block ∨ inner = paged := by
    intro inner hinner
    rcases Relation.ReflTransGen.cases_head hinner with rfl | ⟨middle, hmiddle, hrest⟩
    · exact .inl rfl
    · obtain rfl : middle = paged := List.mem_singleton.mp hmiddle
      rcases Relation.ReflTransGen.cases_head hrest with rfl | ⟨deeper, hdeeper, -⟩
      · exact .inr rfl
      · exact absurd hdeeper List.not_mem_nil
  have heverywhere : block.Everywhere Expr.Named Block.Named := by
    refine ⟨by decide, fun inner hinner => ?_⟩
    rcases hnested inner hinner with rfl | rfl <;> decide +kernel
  have hsingle : ∀ inner, Relation.ReflTransGen Nests block inner →
      inner.singleValue = true → inner.projection.Single := by
    intro inner hinner hvalue
    rcases hnested inner hinner with rfl | rfl
    · rfl
    · cases hvalue
  have hnames : block.parameterNames = ["p", "count"] := by decide
  obtain ⟨tokens, htokens, hparameters⟩ :=
    mem_tokens_render_iff .default block heverywhere hsingle
  rw [hnames] at hparameters
  exact ⟨heverywhere, hsingle, tokens, htokens, hparameters⟩

end Block

end DocumentQuery
