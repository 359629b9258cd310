import DocumentQuery.Proofs.Walking
/-!
# The calls of a visitor

A visitor that applies a rule to every expression, and has nothing to say about
anything else, is asked for the expressions that a revision reaches, in that
order, up to the first one that the rule refuses (`Notes`, `Block.notes`). If the
rule says nothing at all, it is asked for every expression of the block. These
are the expressions that a walk reports, as far as it reports them: walking and
revising go through a block in the same order, and neither leaves anything out
that the other one meets (`Block.reports_eq_calls`).
-/

namespace DocumentQuery

namespace Rule

variable (rule : Rule)

/-- The visitor that applies a rule to every expression, and notes the
expressions that it is asked for. -/
def noting : Visitor (List Expr) where
  onExpr expression walk := do
    Revising.update (· ++ [expression])
    rule.applyOr expression walk

/-- Whether the parts of an expression are not visited. -/
def stops (expression : Expr) : Bool :=
  match rule expression with
  | .ok none => false
  | _ => true

/-- The error with which a rule refuses an expression. -/
def refusal? (expression : Expr) : Option PlanError :=
  match rule expression with
  | .error error => some error
  | .ok _ => none

/-- The expressions of a list up to the first that is refused, and that one. -/
def untilRefused : List Expr → List Expr
  | [] => []
  | expression :: rest =>
    if (rule.refusal? expression).isSome then [expression] else expression :: untilRefused rest

variable {rule}

theorem untilRefused_append_of_refused {reached : List Expr} {error : PlanError}
    (h : reached.findSome? rule.refusal? = some error) (others : List Expr) :
    rule.untilRefused (reached ++ others) = rule.untilRefused reached := by
  induction reached with
  | nil => simp at h
  | cons expression rest ih =>
      rw [List.cons_append, untilRefused, untilRefused]
      cases hrefusal : rule.refusal? expression with
      | some error => rfl
      | none =>
          rw [List.findSome?_cons, hrefusal] at h
          rw [ih h]

theorem untilRefused_append {reached : List Expr}
    (h : reached.findSome? rule.refusal? = none) (others : List Expr) :
    rule.untilRefused (reached ++ others) = reached ++ rule.untilRefused others := by
  induction reached with
  | nil => rfl
  | cons expression rest ih =>
      rw [List.findSome?_eq_none_iff, List.forall_mem_cons] at h
      have hrest := ih (List.findSome?_eq_none_iff.mpr h.2)
      rw [List.cons_append, untilRefused, h.1, hrest]
      rfl

end Rule

/-! ## Visits and the expressions that they come to -/

/-- A visit comes to the given expressions one after the other. If one of them is
refused, it fails there with the error of the refusal, and else it comes to all
of them and succeeds. -/
structure Notes {α : Type} (rule : Rule) (visit : Revising (List Expr) α)
    (reached : List Expr) : Prop where
  refused : ∀ seen error, reached.findSome? rule.refusal? = some error →
    visit seen = (.error error, seen ++ rule.untilRefused reached)
  accepted : ∀ seen, reached.findSome? rule.refusal? = none →
    ∃ answer, visit seen = (.ok answer, seen ++ reached)

namespace Notes

variable {α β γ : Type} {rule : Rule} {visit : Revising (List Expr) α} {reached : List Expr}

theorem pure (answer : α) : Notes rule (Pure.pure answer) [] where
  refused := by simp
  accepted := fun seen _ => ⟨answer, by rw [List.append_nil]; rfl⟩

/-- What a second visit comes to follows, unless the first one fails. -/
theorem bind {next : α → Revising (List Expr) β} {others : List Expr}
    (h : Notes rule visit reached) (hnext : ∀ answer, Notes rule (next answer) others) :
    Notes rule (visit >>= next) (reached ++ others) where
  refused := by
    intro seen error hrefused
    rw [List.findSome?_append] at hrefused
    cases hfirst : reached.findSome? rule.refusal? with
    | some first =>
        rw [hfirst, Option.some_or] at hrefused
        obtain rfl := Option.some.inj hrefused
        rw [Revising.bind_apply, h.refused seen first hfirst,
          Rule.untilRefused_append_of_refused hfirst]
    | none =>
        rw [hfirst, Option.none_or] at hrefused
        obtain ⟨answer, hvisit⟩ := h.accepted seen hfirst
        rw [Revising.bind_apply, hvisit, Rule.untilRefused_append hfirst, ← List.append_assoc]
        exact (hnext answer).refused _ error hrefused
  accepted := by
    intro seen haccepted
    rw [List.findSome?_append, Option.or_eq_none_iff] at haccepted
    obtain ⟨answer, hvisit⟩ := h.accepted seen haccepted.1
    obtain ⟨last, hlast⟩ := (hnext answer).accepted (seen ++ reached) haccepted.2
    exact ⟨last, by rw [Revising.bind_apply, hvisit, ← List.append_assoc]; exact hlast⟩

/-- What is made of an answer does not matter. -/
theorem map (h : Notes rule visit reached) (rebuild : α → β) :
    Notes rule (visit >>= fun answer => Pure.pure (rebuild answer)) reached := by
  have hnode := h.bind fun answer => Notes.pure (rebuild answer)
  rwa [List.append_nil] at hnode

theorem pair {second : Revising (List Expr) β} {others : List Expr}
    (h : Notes rule visit reached) (hsecond : Notes rule second others) (rebuild : α → β → γ) :
    Notes rule (visit >>= fun a => second >>= fun b => Pure.pure (rebuild a b))
      (reached ++ others) :=
  h.bind fun a => hsecond.map (rebuild a)

/-- The visitor notes an expression before it goes on into it. -/
theorem onward {walk : Revising (List Expr) (Option Expr)} {inside : List Expr}
    (h : Notes rule walk inside) (expression : Expr) :
    Notes rule (rule.noting.onExpr expression walk)
      (onward rule.stops expression inside) := by
  have hcall : ∀ seen, rule.noting.onExpr expression walk seen =
      rule.applyOr expression walk (seen ++ [expression]) := fun _ => rfl
  cases hrule : rule expression with
  | error error =>
      have hrefusal : rule.refusal? expression = some error := by rw [Rule.refusal?, hrule]
      have hreached : DocumentQuery.onward rule.stops expression inside = [expression] := by
        simp [DocumentQuery.onward, Rule.stops, hrule]
      rw [hreached]
      constructor
      · intro seen other hother
        rw [List.findSome?_cons, hrefusal] at hother
        obtain rfl := Option.some.inj hother
        rw [hcall, Rule.applyOr, hrule, Rule.untilRefused, hrefusal]
        rfl
      · intro seen hnone
        rw [List.findSome?_cons, hrefusal] at hnone
        simp at hnone
  | ok replacement =>
      have hrefusal : rule.refusal? expression = none := by rw [Rule.refusal?, hrule]
      cases replacement with
      | some new =>
          have hreached : DocumentQuery.onward rule.stops expression inside = [expression] := by
            simp [DocumentQuery.onward, Rule.stops, hrule]
          rw [hreached]
          constructor
          · intro seen error hsome
            simp [hrefusal] at hsome
          · exact fun seen _ => ⟨some new, by rw [hcall, Rule.applyOr, hrule]; rfl⟩
      | none =>
          have hreached : DocumentQuery.onward rule.stops expression inside =
              [expression] ++ inside := by
            simp [DocumentQuery.onward, Rule.stops, hrule]
          have hfirst : [expression].findSome? rule.refusal? = none := by simp [hrefusal]
          rw [hreached]
          constructor
          · intro seen error hsome
            rw [List.findSome?_append, hfirst, Option.none_or] at hsome
            rw [hcall, Rule.applyOr, hrule, Rule.untilRefused_append hfirst, ← List.append_assoc]
            exact h.refused _ error hsome
          · intro seen hnone
            rw [List.findSome?_append, hfirst, Option.none_or] at hnone
            rw [hcall, Rule.applyOr, hrule, ← List.append_assoc]
            exact h.accepted _ hnone

/-- A walk that visits the items of a list one after the other comes to what it
reaches in each of them. -/
theorem all (walkAll : List α → Revising (List Expr) (List (Option β))) {items : List α}
    {visitItem : α → Revising (List Expr) (Option β)} {reachedIn : α → List Expr}
    (hnil : walkAll [] = Pure.pure [])
    (hcons : ∀ item rest, walkAll (item :: rest) =
      visitItem item >>= fun first => walkAll rest >>= fun more => Pure.pure (first :: more))
    (h : ∀ item ∈ items, Notes rule (visitItem item) (reachedIn item)) :
    Notes rule (walkAll items) (items.flatMap reachedIn) := by
  induction items with
  | nil => rw [hnil]; exact .pure []
  | cons item rest ih =>
      rw [List.forall_mem_cons] at h
      rw [hcons, List.flatMap_cons]
      exact h.1.pair (ih h.2) fun first more => first :: more

end Notes

/-! ## Expressions -/

variable {rule : Rule}

/-- A visit comes to what is reached in an expression. -/
def Expr.Noted (rule : Rule) (expression : Expr) : Prop :=
  Notes rule (expression.visit rule.noting) (expression.reached rule.stops)

def Block.Noted (rule : Rule) (block : Block) : Prop :=
  Notes rule (block.visit rule.noting) (block.reached rule.stops)

theorem notes_exprs {expressions : List Expr} (h : ∀ e ∈ expressions, e.Noted rule) :
    Notes rule (visitExprs rule.noting expressions) (reachedIn rule.stops expressions) := by
  rw [reachedIn_eq]
  exact .all (visitExprs rule.noting) rfl (fun _ _ => rfl) h

theorem Expr.noted_of_parts {expression : Expr}
    (hparts : ∀ part ∈ expression.parts, part.Noted rule)
    (hblock : ∀ block ∈ expression.block?, block.Noted rule) : expression.Noted rule := by
  cases expression with
  | binary operator left right type =>
      have hleft := hparts left (by simp [parts])
      have hright := hparts right (by simp [parts])
      exact (hleft.pair hright _).onward _
  | unary operator operand type =>
      have hoperand := hparts operand (by simp [parts])
      exact (hoperand.map _).onward _
  | property base name type =>
      have hbase := hparts base (by simp [parts])
      exact (hbase.map _).onward _
  | item array index type =>
      have harray := hparts array (by simp [parts])
      have hindex := hparts index (by simp [parts])
      exact (harray.pair hindex _).onward _
  | call function arguments type => exact ((notes_exprs hparts).map _).onward _
  | inlineArray items => exact ((notes_exprs hparts).map _).onward _
  | membership value values negated =>
      rw [parts, List.forall_mem_cons] at hparts
      exact (hparts.1.pair (notes_exprs hparts.2) _).onward _
  | subquery kind block => exact ((hblock block rfl).map _).onward _
  | _ => exact (Notes.pure none).onward _

/-! ## The clauses of a block -/

theorem notes_projected {projected : Projected} (h : projected.expression.Noted rule) :
    Notes rule (projected.visit rule.noting) (projected.expression.reached rule.stops) := by
  cases projected with
  | scalar value => exact h.map _
  | object entityType access => exact h.map _

theorem notes_projection {projection : Projection}
    (h : ∀ expression ∈ projection.expressions, expression.Noted rule) :
    Notes rule (projection.visit rule.noting) (projection.reached rule.stops) := by
  cases projection with
  | pending mapping =>
      rcases mapping with ⟨entries⟩
      have hentries := Notes.all (visitEntries rule.noting) rfl (fun _ _ => rfl)
        fun entry (hentry : entry ∈ entries) =>
          notes_projected (h _ (List.mem_map_of_mem (List.mem_map_of_mem hentry)))
      rw [Projection.reached, reachedInEntries_eq]
      exact hentries.map _
  | frozen columns bindings =>
      have hcolumns := Notes.all (visitColumns rule.noting) rfl
        (fun column _ => by cases column; rfl)
        fun column (hcolumn : column ∈ columns) =>
          notes_projected (h _ (List.mem_map_of_mem hcolumn))
      rw [Projection.reached, reachedInColumns_eq]
      exact hcolumns.map _

theorem notes_source {source : Source} (harray : ∀ array ∈ source.collection?, array.Noted rule)
    (hblock : ∀ block ∈ source.block?, block.Noted rule) :
    Notes rule
      (rule.noting.onSource source
        (source.payload.visit rule.noting source.aliasName source.iterated))
      (source.payload.reached rule.stops) := by
  rcases source with ⟨payload, aliasName, iterated⟩
  cases payload with
  | root entityType container => exact .pure none
  | select block => exact (hblock block rfl).map _
  | collection array => exact (harray array rfl).map _
  | raw entityType text => exact .pure none

theorem notes_sources {sources : List Source}
    (harray : ∀ source ∈ sources, ∀ array ∈ source.collection?, array.Noted rule)
    (hblock : ∀ source ∈ sources, ∀ block ∈ source.block?, block.Noted rule) :
    Notes rule (visitSources rule.noting sources) (reachedInSources rule.stops sources) := by
  rw [reachedInSources_eq]
  exact .all (visitSources rule.noting) rfl (fun source _ => by cases source; rfl)
    fun source hsource => notes_source (harray source hsource) (hblock source hsource)

theorem notes_sortKeys {keys : List SortKey} (h : ∀ key ∈ keys, key.expression.Noted rule) :
    Notes rule (visitSortKeys rule.noting keys) (reachedInSortKeys rule.stops keys) := by
  rw [reachedInSortKeys_eq]
  exact .all (visitSortKeys rule.noting) rfl (fun key _ => by cases key; rfl) h

theorem notes_optional {optional : Option Expr} (h : ∀ e ∈ optional, e.Noted rule) :
    Notes rule (visitOptional rule.noting optional) (reachedInOptional rule.stops optional) := by
  cases optional with
  | none => exact .pure none
  | some expression => exact h expression rfl

/-! ## Blocks -/

namespace Block

theorem noted_of_clauses {block : Block}
    (hexpressions : ∀ expression ∈ block.expressions, expression.Noted rule)
    (hblocks : ∀ inner ∈ block.sourceBlocks, inner.Noted rule) : block.Noted rule := by
  simp only [expressions, List.forall_mem_append, List.mem_filterMap, List.forall_mem_map,
    Option.mem_toList] at hexpressions
  obtain ⟨⟨⟨⟨⟨hprojected, harrays⟩, hpredicate⟩, hkeys⟩, hoffset⟩, hlimit⟩ := hexpressions
  have hsources := notes_sources
    (fun source hsource array harray => harrays array ⟨source, hsource, harray⟩)
    fun source hsource inner hinner =>
      hblocks inner (List.mem_filterMap.mpr ⟨source, hsource, hinner⟩)
  have hvisit : block.visit rule.noting = block.visitParts rule.noting := block.visit_eq _
  rw [Noted, hvisit, reached_eq]
  simp only [List.append_assoc]
  exact (notes_projection hprojected).bind fun _ => hsources.bind fun _ =>
    (notes_optional hpredicate).bind fun _ => (notes_sortKeys hkeys).bind fun _ =>
      (notes_optional hoffset).pair (notes_optional hlimit) _

/-- The walk through a block comes to what is reached in it, up to the first
expression that is refused. -/
theorem notes (rule : Rule) (block : Block) :
    Notes rule (block.visitParts rule.noting) (block.reached rule.stops) := by
  have houtward : PassesOutward (Expr.Noted rule) (Block.Noted rule) :=
    ⟨fun _ => Expr.noted_of_parts, fun _ => noted_of_clauses⟩
  have hvisit : block.visit rule.noting = block.visitParts rule.noting := block.visit_eq _
  have hnoted : block.Noted rule := houtward.all_block block
  rwa [Noted, hvisit] at hnoted

/-- A walk hands over what a visitor is asked for that goes through a whole block,
in the same order and each node with all that it holds. Of the references it hands
over the aliases, and of operators, items of arrays and lists what stands in them. -/
theorem reports_eq_calls (block : Block) :
    ∃ answer calls, block.visitParts Rule.identity.noting [] = (.ok answer, calls) ∧
      calls.filterMap Expr.report? = block.reports := by
  have hnone : (block.reached Rule.identity.stops).findSome? Rule.identity.refusal? = none :=
    List.findSome?_eq_none_iff.mpr fun _ _ => rfl
  obtain ⟨answer, hvisit⟩ := (notes Rule.identity block).accepted [] hnone
  exact ⟨answer, block.nodes, hvisit, (reports_eq block).symm⟩

end Block

end DocumentQuery
