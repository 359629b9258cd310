import DocumentQuery.Block.Build
import DocumentQuery.Block.Edit
import DocumentQuery.Proofs.Rebuilding
import DocumentQuery.Proofs.Replacement
import DocumentQuery.Proofs.Traversal
import DocumentQuery.Proofs.Validity
import DocumentQuery.Revision.Inline
/-!
# Revising is replacing

A revision rebuilds a node only if something in it changed. For a rule that only
replaces expressions this comes to the same as replacing them plainly, as long
as the block and all that is nested in it is valid: a position that is bound
twice would be bound once after a change, and an array that cannot be iterated
over directly would be wrapped.

What changed is told from the expressions that are reached. `Settles` says of a
walk that it answers with the replaced node exactly if it reached an expression
to replace, and that without one there is nothing to replace. It is proved for
each part of a block from what it is made of (`Expr.follows_of_parts`,
`Block.follows_of_clauses`), and holds at any depth by induction over the
nesting.
-/

namespace DocumentQuery

variable {α β γ : Type}

/-! ## Walks that replace -/

section Settles

variable {σ : Type} (f : Expr → Option Expr)

def replaced (expression : Expr) : Bool :=
  (f expression).isSome

/-- Whether one of the reached expressions is replaced. -/
def hits (nodes : List Expr) : Bool :=
  nodes.any (replaced f)

/-- A walk that reaches `nodes` answers with the new node exactly if one of them
is replaced, and otherwise nothing is new. -/
structure Settles (walk : Revising σ (Option α)) (nodes : List Expr) (old new : α) : Prop where
  answer : walk = pure (changed (hits f nodes) new)
  kept : hits f nodes = false → new = old

variable {f} {nodes others : List Expr}

theorem hits_append : hits f (nodes ++ others) = (hits f nodes || hits f others) :=
  List.any_append

theorem hits_flatMap (items : List α) (reached : α → List Expr) :
    hits f (items.flatMap reached) = items.any fun item => hits f (reached item) :=
  List.any_flatMap

namespace Settles

variable {walk : Revising σ (Option α)} {old new : α}

theorem refl (node : α) : Settles f (pure none : Revising σ (Option α)) [] node node :=
  ⟨rfl, fun _ => rfl⟩

theorem map (h : Settles f walk nodes old new) (node : α → β) :
    Settles f (walk >>= fun answer => pure (answer.map node)) nodes (node old) (node new) := by
  refine ⟨?_, fun hhit => congrArg node (h.kept hhit)⟩
  rw [h.answer, pure_bind, map_changed]

theorem pair {second : Revising σ (Option β)} {oldSecond newSecond : β}
    (h : Settles f walk nodes old new) (hsecond : Settles f second others oldSecond newSecond)
    (node : α → β → γ) :
    Settles f
      (walk >>= fun a => second >>= fun b => pure (rebuildPair node old oldSecond a b))
      (nodes ++ others) (node old oldSecond) (node new newSecond) := by
  refine ⟨?_, fun hhit => ?_⟩
  · rw [h.answer, hsecond.answer, hits_append, pure_bind, pure_bind,
      rebuildPair_changed node h.kept hsecond.kept]
  · rw [hits_append, Bool.or_eq_false_iff] at hhit
    rw [h.kept hhit.1, hsecond.kept hhit.2]

/-- What is walked through item by item is rebuilt if something in an item is
replaced. -/
theorem of_items {items : List α} {reached : α → List Expr} {raw : List (Option β)}
    {walk : Revising σ (List (Option β))} {rebuild : List (Option β) → Option γ} {old new : γ}
    (hwalk : walk = pure raw)
    (hrebuild : rebuild raw = changed (items.any fun item => hits f (reached item)) new)
    (hkept : (items.any fun item => hits f (reached item)) = false → new = old) :
    Settles f (walk >>= fun raw => pure (rebuild raw)) (items.flatMap reached) old new := by
  refine ⟨?_, fun hhit => hkept (hits_flatMap items reached ▸ hhit)⟩
  rw [hwalk, pure_bind, hrebuild, hits_flatMap]

theorem applyOr {walk : Revising σ (Option Expr)} {old new : Expr}
    (h : Settles f walk nodes old new) :
    Settles f ((Rule.replacing f).applyOr old walk) (onward (replaced f) old nodes) old
      ((f old).getD new) := by
  cases hrule : f old with
  | none =>
      have honward : onward (replaced f) old nodes = old :: nodes := by
        simp [onward, replaced, hrule]
      have hhits : hits f (old :: nodes) = hits f nodes := by
        simp [hits, replaced, hrule]
      rw [honward]
      refine ⟨?_, fun hhit => h.kept (hhits ▸ hhit)⟩
      rw [hhits, Option.getD_none, ← h.answer]
      simp [Rule.applyOr, Rule.replacing, hrule]
  | some replacement =>
      have hhits : hits f (onward (replaced f) old nodes) = true := by
        simp [hits, onward, replaced, hrule]
      refine ⟨?_, fun hhit => ?_⟩
      · rw [hhits]
        simp [Rule.applyOr, Rule.replacing, hrule, changed]
      · simp [hhits] at hhit

end Settles

theorem walkAll_eq {items : List α} {walkAll : List α → Revising σ (List (Option β))}
    {walk : α → Revising σ (Option β)} {reached : α → List Expr} {old new : α → β}
    (hnil : walkAll [] = pure [])
    (hcons : ∀ item rest, walkAll (item :: rest) =
      walk item >>= fun first => walkAll rest >>= fun more => pure (first :: more))
    (h : ∀ item ∈ items, Settles f (walk item) (reached item) (old item) (new item)) :
    walkAll items = pure (items.map fun item => changed (hits f (reached item)) (new item)) :=
  walkAll_pure hnil hcons fun item hitem => (h item hitem).answer

end Settles

/-! ## Expressions -/

section Follows

variable (σ : Type) (f : Expr → Option Expr)

/-- The visitor that replaces expressions. -/
def replacer : Visitor σ :=
  (Rule.replacing f).visitor

/-- Visiting an expression comes to replacing in it. -/
def Expr.Follows (expression : Expr) : Prop :=
  Settles f (expression.visit (replacer σ f)) (expression.reached (replaced f)) expression
    (expression.replace f)

/-- Visiting a block comes to replacing in it. -/
def Block.Follows (block : Block) : Prop :=
  Settles f (block.visit (replacer σ f)) (block.reached (replaced f)) block (block.replace f)

variable {σ f}

theorem settles_exprs {expressions : List Expr}
    (h : ∀ expression ∈ expressions, expression.Follows σ f) :
    Settles f (visitExprs (replacer σ f) expressions >>= fun new =>
        pure (rebuildList expressions new))
      (reachedIn (replaced f) expressions) expressions (replaceIn f expressions) := by
  have hvisit : visitExprs (replacer σ f) expressions = _ :=
    walkAll_eq rfl (fun _ _ => rfl) h
  have hkept : ∀ expression ∈ expressions,
      hits f (expression.reached (replaced f)) = false → expression.replace f = expression :=
    fun expression hexpression => (h expression hexpression).kept
  rw [reachedIn_eq, replaceIn_eq]
  exact .of_items hvisit (rebuildList_changed hkept) (map_of_unchanged hkept)

/-- Visiting an expression comes to replacing in it if that holds of its parts
and its block. -/
theorem Expr.follows_of_parts {expression : Expr}
    (hparts : ∀ part ∈ expression.parts, part.Follows σ f)
    (hblock : ∀ block ∈ expression.block?, block.Follows σ f) : expression.Follows σ f := by
  cases expression with
  | constant value type => exact (Settles.refl _).applyOr
  | parameter name type => exact (Settles.refl _).applyOr
  | binary operator left right type =>
      have hleft := hparts left (by simp [parts])
      have hright := hparts right (by simp [parts])
      exact (hleft.pair hright fun left right => .binary operator left right type).applyOr
  | unary operator operand type =>
      have hoperand := hparts operand (by simp [parts])
      exact (hoperand.map fun operand => .unary operator operand type).applyOr
  | property base name type =>
      have hbase := hparts base (by simp [parts])
      exact (hbase.map fun base => .property base name type).applyOr
  | item array index type =>
      have harray := hparts array (by simp [parts])
      have hindex := hparts index (by simp [parts])
      exact (harray.pair hindex fun array index => .item array index type).applyOr
  | call function arguments type =>
      have harguments := (settles_exprs hparts).map fun arguments =>
        Expr.call function arguments type
      rw [bind_assoc] at harguments
      exact harguments.applyOr
  | inlineArray items =>
      have hitems := (settles_exprs hparts).map Expr.inlineArray
      rw [bind_assoc] at hitems
      exact hitems.applyOr
  | membership value values negated =>
      rw [parts, List.forall_mem_cons] at hparts
      have hvalues := hparts.1.pair (settles_exprs hparts.2) fun value values =>
        Expr.membership value values negated
      simp only [bind_assoc, pure_bind] at hvalues
      exact hvalues.applyOr
  | subquery kind block =>
      exact ((hblock block rfl).map fun block => .subquery kind block).applyOr
  | scalarReference aliasName type => exact (Settles.refl _).applyOr
  | objectReference entityType aliasName => exact (Settles.refl _).applyOr
  | fragment text => exact (Settles.refl _).applyOr

/-! ## The clauses of a block -/

theorem settles_projected {projected : Projected} (h : projected.expression.Follows σ f) :
    Settles f (projected.visit (replacer σ f)) (projected.expression.reached (replaced f))
      projected (projected.replace f) := by
  cases projected with
  | scalar value => exact h.map Projected.scalar
  | object entityType access => exact h.map (Projected.object entityType)

/-- What positions are bound to is rebuilt as a whole. The positions stay where
they are because none is bound twice. -/
theorem settles_pending {mapping : Mapping Projected} (hnodup : mapping.keys.Nodup)
    (h : ∀ entry ∈ mapping.entries, entry.2.expression.Follows σ f) :
    Settles f ((Projection.pending mapping).visit (replacer σ f))
      ((Projection.pending mapping).reached (replaced f)) (.pending mapping)
      ((Projection.pending mapping).replace f) := by
  have hentries := fun entry hentry => settles_projected (h entry hentry)
  have hvisit : visitEntries (replacer σ f) mapping.entries = _ :=
    walkAll_eq rfl (fun _ _ => rfl) hentries
  have hkept : ∀ entry ∈ mapping.entries,
      hits f (entry.2.expression.reached (replaced f)) = false → entry.2.replace f = entry.2 :=
    fun entry hentry => (hentries entry hentry).kept
  have hreached : (Projection.pending mapping).reached (replaced f) =
      mapping.entries.flatMap (·.2.expression.reached (replaced f)) :=
    reachedInEntries_eq (replaced f) mapping.entries
  have hreplace : (Projection.pending mapping).replace f =
      .pending ⟨mapping.entries.map fun entry => (entry.1, entry.2.replace f)⟩ := by
    rw [← replaceInEntries_eq]
    rfl
  rw [hreached, hreplace]
  refine .of_items hvisit (rebuildMapping_changed hnodup hkept) fun hnone => ?_
  have hsame : mapping.entries.map (fun entry => (entry.1, entry.2.replace f)) =
      mapping.entries :=
    map_of_unchanged (fun entry hentry hhit => by rw [hkept entry hentry hhit]) hnone
  rw [hsame]

theorem settles_frozen {columns : List Column} (bindings : Mapping Nat)
    (h : ∀ column ∈ columns, column.expression.expression.Follows σ f) :
    Settles f ((Projection.frozen columns bindings).visit (replacer σ f))
      ((Projection.frozen columns bindings).reached (replaced f)) (.frozen columns bindings)
      ((Projection.frozen columns bindings).replace f) := by
  have hcolumns := fun column hcolumn => settles_projected (h column hcolumn)
  have hvisit : visitColumns (replacer σ f) columns = _ :=
    walkAll_eq rfl (fun column _ => by cases column; rfl) hcolumns
  have hkept : ∀ column ∈ columns,
      hits f (column.expression.expression.reached (replaced f)) = false →
        column.expression.replace f = column.expression :=
    fun column hcolumn => (hcolumns column hcolumn).kept
  have hreached : (Projection.frozen columns bindings).reached (replaced f) =
      columns.flatMap (·.expression.expression.reached (replaced f)) :=
    reachedInColumns_eq (replaced f) columns
  rw [hreached, Projection.replace, replaceInColumns_eq]
  refine .of_items hvisit ?_ fun hnone => ?_
  · rw [rebuildColumns_changed hkept, map_changed]
  · have hsame : columns.map (fun column =>
        ⟨column.expression.replace f, column.aliasName⟩) = columns := by
      refine map_of_unchanged (fun column hcolumn hhit => ?_) hnone
      rw [hkept column hcolumn hhit]
      cases column
      rfl
    rw [hsame]

theorem settles_projection {projection : Projection} {singleValue : Bool}
    (h : ∀ expression ∈ projection.expressions, expression.Follows σ f)
    (hsound : projection.Sound singleValue) :
    Settles f (projection.visit (replacer σ f)) (projection.reached (replaced f)) projection
      (projection.replace f) := by
  cases projection with
  | pending mapping =>
      exact settles_pending hsound fun entry hentry =>
        h _ (List.mem_map_of_mem (List.mem_map_of_mem hentry))
  | frozen columns bindings =>
      exact settles_frozen bindings fun column hcolumn => h _ (List.mem_map_of_mem hcolumn)

/-- A legal source stays as it is if nothing in it is replaced: its array can be
iterated over directly. -/
theorem settles_source {source : Source} (hlegal : source.Legal)
    (harray : ∀ array ∈ source.collection?, array.Follows σ f)
    (hblock : ∀ block ∈ source.block?, block.Follows σ f) :
    Settles f ((replacer σ f).onSource source
        (source.payload.visit (replacer σ f) source.aliasName source.iterated))
      (source.payload.reached (replaced f)) source
      (source.payload.replace f source.aliasName source.iterated) := by
  rcases source with ⟨payload, aliasName, iterated⟩
  cases payload with
  | root entityType container => exact Settles.refl _
  | select block =>
      exact (hblock block rfl).map fun block => Source.mk (.select block) aliasName iterated
  | collection array =>
      have hsettles := (harray array rfl).map fun array => Source.iterate array aliasName
      obtain ⟨hiterated, hpath⟩ := hlegal
      have hself : Source.iterate array aliasName = ⟨.collection array, aliasName, iterated⟩ := by
        rw [Source.iterate, if_pos hpath, ← hiterated]
      rw [hself] at hsettles
      exact hsettles
  | raw entityType text => exact Settles.refl _

theorem settles_sources {sources : List Source} (hlegal : ∀ source ∈ sources, source.Legal)
    (h : ∀ source ∈ sources, (∀ array ∈ source.collection?, array.Follows σ f) ∧
      ∀ block ∈ source.block?, block.Follows σ f) :
    Settles f (visitSources (replacer σ f) sources >>= fun new =>
        pure (rebuildList sources new))
      (reachedInSources (replaced f) sources) sources (replaceInSources f sources) := by
  have hsources := fun source hsource =>
    settles_source (hlegal source hsource) (h source hsource).1 (h source hsource).2
  have hvisit : visitSources (replacer σ f) sources = _ :=
    walkAll_eq rfl (fun source _ => by cases source; rfl) hsources
  have hkept : ∀ source ∈ sources, hits f (source.payload.reached (replaced f)) = false →
      source.payload.replace f source.aliasName source.iterated = source :=
    fun source hsource => (hsources source hsource).kept
  rw [reachedInSources_eq, replaceInSources_eq]
  exact .of_items hvisit (rebuildList_changed hkept) (map_of_unchanged hkept)

theorem settles_sortKeys {keys : List SortKey}
    (h : ∀ key ∈ keys, key.expression.Follows σ f) :
    Settles f (visitSortKeys (replacer σ f) keys >>= fun new => pure (rebuildSortKeys keys new))
      (reachedInSortKeys (replaced f) keys) keys (replaceInSortKeys f keys) := by
  have hvisit : visitSortKeys (replacer σ f) keys = _ :=
    walkAll_eq rfl (fun key _ => by cases key; rfl) h
  have hkept : ∀ key ∈ keys, hits f (key.expression.reached (replaced f)) = false →
      key.expression.replace f = key.expression :=
    fun key hkey => (h key hkey).kept
  rw [reachedInSortKeys_eq, replaceInSortKeys_eq]
  refine .of_items hvisit (rebuildSortKeys_changed hkept) fun hnone => ?_
  refine map_of_unchanged (fun key hkey hhit => ?_) hnone
  rw [hkept key hkey hhit]
  cases key
  rfl

variable (f) in
/-- An optional expression: the answer is taken over if there is one, and else
the expression stays. -/
structure SettlesOptional (walk : Revising σ (Option Expr)) (nodes : List Expr)
    (old new : Option Expr) : Prop where
  answer : ∃ answer, walk = pure answer ∧ answer.isNone = !hits f nodes ∧ (answer <|> old) = new
  kept : hits f nodes = false → new = old

theorem settlesOptional {optional : Option Expr}
    (h : ∀ expression ∈ optional, expression.Follows σ f) :
    SettlesOptional f (visitOptional (replacer σ f) optional)
      (reachedInOptional (replaced f) optional) optional (replaceInOptional f optional) := by
  cases optional with
  | none => exact ⟨⟨none, rfl, rfl, rfl⟩, fun _ => rfl⟩
  | some expression =>
      have hsettles := h expression rfl
      refine ⟨⟨_, hsettles.answer, isNone_changed _ _, changed_orElse hsettles.kept⟩, ?_⟩
      intro hhit
      rw [replaceInOptional, hsettles.kept hhit]

/-! ## Blocks -/

/-- The walk through a block, with each clause rebuilt as soon as it was
visited. -/
theorem Block.visitParts_eq (v : Visitor σ) (block : Block) :
    (do
      let projection ← block.projection.visit v
      let sources ← visitSources v block.sources >>= fun new =>
        pure (rebuildList block.sources new)
      let predicate ← visitOptional v block.predicate
      let orderings ← visitSortKeys v block.orderings >>= fun new =>
        pure (rebuildSortKeys block.orderings new)
      let offset ← visitOptional v block.offset
      let limit ← visitOptional v block.limit
      pure (block.rebuild ⟨projection, sources, predicate, orderings, offset, limit⟩)) =
    block.visitParts v := by
  simp only [visitParts, bind_assoc, pure_bind]

/-- Visiting a sound block comes to replacing in it if that holds of its
expressions and of the blocks that it takes rows from. -/
theorem Block.follows_of_clauses {block : Block} (hsound : block.Sound)
    (hexpressions : ∀ expression ∈ block.expressions, expression.Follows σ f)
    (hblocks : ∀ inner ∈ block.sourceBlocks, inner.Follows σ f) : block.Follows σ f := by
  simp only [expressions, List.forall_mem_append, List.mem_filterMap, List.forall_mem_map,
    Option.mem_toList] at hexpressions
  obtain ⟨⟨⟨⟨⟨hprojected, harrays⟩, hpredicate⟩, hkeys⟩, hoffset⟩, hlimit⟩ := hexpressions
  have hin : ∀ source ∈ block.sources, (∀ array ∈ source.collection?, array.Follows σ f) ∧
      ∀ inner ∈ source.block?, inner.Follows σ f := by
    intro source hsource
    refine ⟨fun array harray => harrays array ⟨source, hsource, harray⟩, ?_⟩
    exact fun inner hinner => hblocks inner (List.mem_filterMap.mpr ⟨source, hsource, hinner⟩)
  have hprojection := settles_projection hprojected hsound.projection
  have hsources := settles_sources hsound.sources hin
  have horderings := settles_sortKeys hkeys
  obtain ⟨⟨predicate, hpredicate, hnoPredicate, hnewPredicate⟩, hkeptPredicate⟩ :=
    settlesOptional hpredicate
  obtain ⟨⟨offset, hoffset, hnoOffset, hnewOffset⟩, hkeptOffset⟩ := settlesOptional hoffset
  obtain ⟨⟨limit, hlimit, hnoLimit, hnewLimit⟩, hkeptLimit⟩ := settlesOptional hlimit
  have hhits : hits f (block.reached (replaced f)) =
      (hits f (block.projection.reached (replaced f)) ||
        hits f (reachedInSources (replaced f) block.sources) ||
        hits f (reachedInOptional (replaced f) block.predicate) ||
        hits f (reachedInSortKeys (replaced f) block.orderings) ||
        hits f (reachedInOptional (replaced f) block.offset) ||
        hits f (reachedInOptional (replaced f) block.limit)) := by
    simp only [Block.reached_eq, hits_append]
  refine ⟨?_, fun hhit => ?_⟩
  · have hvisit : block.visit (replacer σ f) = block.visitParts (replacer σ f) :=
      block.visit_eq (replacer σ f)
    rw [hvisit, ← visitParts_eq, hprojection.answer, hsources.answer, hpredicate,
      horderings.answer, hoffset, hlimit]
    simp only [pure_bind, rebuild, getD_changed hprojection.kept, getD_changed hsources.kept,
      getD_changed horderings.kept, hnewPredicate, hnewOffset, hnewLimit, ← replace_eq]
    have hempty : Changes.isEmpty
        ⟨changed (hits f (block.projection.reached (replaced f))) (block.projection.replace f),
          changed (hits f (reachedInSources (replaced f) block.sources))
            (replaceInSources f block.sources), predicate,
          changed (hits f (reachedInSortKeys (replaced f) block.orderings))
            (replaceInSortKeys f block.orderings), offset, limit⟩ =
        !hits f (block.reached (replaced f)) := by
      simp only [Changes.isEmpty, isNone_changed, hnoPredicate, hnoOffset, hnoLimit, hhits,
        Bool.not_or]
    rw [hempty]
    cases hits f (block.reached (replaced f)) <;> rfl
  · simp only [hhits, Bool.or_eq_false_iff] at hhit
    obtain ⟨⟨⟨⟨⟨hnone, hnone'⟩, hnone₂⟩, hnone₃⟩, hnone₄⟩, hnone₅⟩ := hhit
    rw [replace_eq, hprojection.kept hnone, hsources.kept hnone', hkeptPredicate hnone₂,
      horderings.kept hnone₃, hkeptOffset hnone₄, hkeptLimit hnone₅, update_self]

/-- Visiting a block comes to replacing in it as soon as it and all that is
nested in it is sound. -/
theorem Block.SoundThroughout.follows {block : Block} (h : block.SoundThroughout) :
    block.Follows σ f := by
  have houtward : PassesOutward
      (fun expression => (∀ inner ∈ expression.subqueries, inner.SoundThroughout) →
        expression.Follows σ f)
      (fun block => block.SoundThroughout → block.Follows σ f) := by
    constructor
    · intro expression hparts hblock hsound
      rw [expression.subqueries_eq] at hsound
      simp only [List.mem_append, List.mem_flatMap, Option.mem_toList] at hsound
      refine Expr.follows_of_parts (fun part hpart => hparts part hpart fun inner hinner => ?_)
        fun block hmem => hblock block hmem (hsound block (Or.inl hmem))
      exact hsound inner (Or.inr ⟨part, hpart, hinner⟩)
    · intro block hexpressions hblocks hsound
      refine Block.follows_of_clauses hsound.sound
        (fun expression hexpression => hexpressions expression hexpression fun inner hinner => ?_)
        fun inner hinner => hblocks inner hinner (hsound.of_nests (.of_sourceBlocks hinner))
      exact hsound.of_nests (.of_expressions hexpression hinner)
  exact houtward.all_block block h

end Follows

namespace Block

/-- A visit that replaces expressions in a block in which all is valid succeeds.
It answers with a block exactly if it reached an expression to replace, and what
it leaves is the block with the replacements made plainly. -/
theorem visit_replacing {σ : Type} (f : Expr → Option Expr) (block : Block) (s : σ)
    (h : ∀ inner, Relation.ReflTransGen Nests block inner → inner.validate = .ok ()) :
    ∃ answer, block.visit (Rule.replacing f).visitor s = (.ok answer, s) ∧
      answer.getD block = block.replace f ∧
      (answer.isSome = true ↔
        ∃ expression ∈ block.reached (replaced f), (f expression).isSome = true) := by
  have hsound : block.SoundThroughout := fun inner hinner => Sound.of_validate (h inner hinner)
  have hfollows : block.Follows σ f := hsound.follows
  refine ⟨_, congrFun hfollows.answer s, getD_changed hfollows.kept, ?_⟩
  rw [← Option.not_isNone, isNone_changed, Bool.not_not]
  exact List.any_eq_true

/-- The parameter of a subquery gives way to a constant. -/
theorem visit_replacing_subquery :
    let rule : Expr → Option Expr := inlined? (Values.ofList [("p", .null)])
    let asked := ofValue (.parameter "p" .string)
    let tags := Expr.property (.objectReference "Blog" "c") "Tags" .array
    let block := (overCollection tags "t" (.scalar (.scalarReference "t" .string))).filter
      (.subquery .exists asked)
    (∀ inner, Relation.ReflTransGen Nests block inner → inner.validate = .ok ()) ∧
      ∃ answer, block.visit (Rule.replacing rule).visitor () = (.ok answer, ()) ∧
        answer.getD block = block.replace rule ∧ answer.isSome = true := by
  intro rule asked tags block
  have hvalid : ∀ inner, Relation.ReflTransGen Nests block inner → inner.validate = .ok () := by
    intro inner hinner
    rcases Relation.ReflTransGen.cases_head hinner with rfl | ⟨middle, hmiddle, hrest⟩
    · rfl
    · obtain rfl : middle = asked := List.mem_singleton.mp hmiddle
      rcases Relation.ReflTransGen.cases_head hrest with rfl | ⟨deeper, hdeeper, -⟩
      · rfl
      · exact absurd hdeeper List.not_mem_nil
  obtain ⟨answer, hvisit, hanswer, hsome⟩ := visit_replacing rule block () hvalid
  refine ⟨hvalid, answer, hvisit, hanswer, hsome.mpr ⟨.parameter "p" .string, ?_, rfl⟩⟩
  exact .tail _ (.tail _ (.tail _ (.tail _ (.head _))))

end Block

end DocumentQuery
