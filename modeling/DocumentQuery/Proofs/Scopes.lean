import DocumentQuery.Proofs.Joins
/-!
# What references refer to

A reference refers to the source with its alias in the innermost block around it
that has one (`referent?`); where none has, it is free. The alias of a joined
source is picked among the aliases of the block itself, as the scope of an alias
is its block: what refers to a source of the block, or of a block in it, goes on
to do so. A free reference is not looked for, and one that has the picked alias
refers to the joined source from then on. These are all that change
(`Block.addJoin_referents`).
-/

namespace DocumentQuery

/-! ## References and their scopes -/

mutual

/-- A reference to an alias stands in an expression, within the blocks `inside`
of it, the innermost first. -/
inductive Expr.Mentions : Expr → List Block → String → Prop where
  | scalarReference (aliasName : String) (type : ValueType) :
      Expr.Mentions (.scalarReference aliasName type) [] aliasName
  | objectReference (entityType aliasName : String) :
      Expr.Mentions (.objectReference entityType aliasName) [] aliasName
  | part {whole part : Expr} {inside : List Block} {aliasName : String}
      (hpart : part ∈ whole.parts) (h : Expr.Mentions part inside aliasName) :
      Expr.Mentions whole inside aliasName
  | subquery (kind : SubqueryKind) {block : Block} {inside : List Block} {aliasName : String}
      (h : Block.Mentions block inside aliasName) :
      Expr.Mentions (.subquery kind block) (inside ++ [block]) aliasName

/-- A reference to an alias stands in a block, be it in a binding of the partition
key, within the blocks `inside` of it, the innermost first. -/
inductive Block.Mentions : Block → List Block → String → Prop where
  | expression {block : Block} {expression : Expr} {inside : List Block} {aliasName : String}
      (hexpression : expression ∈ block.expressions ++ block.keyBindings.map (·.value))
      (h : Expr.Mentions expression inside aliasName) : Block.Mentions block inside aliasName
  | source {block inner : Block} {inside : List Block} {aliasName : String}
      (hinner : inner ∈ block.sourceBlocks) (h : Block.Mentions inner inside aliasName) :
      Block.Mentions block (inside ++ [inner]) aliasName

end

/-- No block of the scope has a source with the alias. -/
def Free (scope : List Block) (aliasName : String) : Prop :=
  ∀ block ∈ scope, ∀ source ∈ block.sources,
    Text.lowercase source.aliasName ≠ Text.lowercase aliasName

instance (scope : List Block) (aliasName : String) : Decidable (Free scope aliasName) :=
  inferInstanceAs (Decidable (∀ block ∈ scope, ∀ source ∈ block.sources,
    Text.lowercase source.aliasName ≠ Text.lowercase aliasName))

/-- The source that a reference refers to in a scope, the innermost block being
the first: the number of blocks around that of the source, and the number of the
source in its block. -/
def referent? : List Block → String → Option (Nat × Nat)
  | [], _ => none
  | block :: around, aliasName =>
    match block.sources.findIdx? fun source => Alias.collide source.aliasName aliasName with
    | some number => some (around.length, number)
    | none => referent? around aliasName

variable {aliasName : String}

theorem free_append (inside around : List Block) :
    Free (inside ++ around) aliasName ↔ Free inside aliasName ∧ Free around aliasName := by
  simp [Free, or_imp, forall_and]

theorem free_singleton_iff (block : Block) :
    Free [block] aliasName ↔
      block.sources.findIdx? (fun source => Alias.collide source.aliasName aliasName) = none := by
  simp [Free, Alias.collide]

theorem referent?_singleton (block : Block) :
    referent? [block] aliasName =
      (block.sources.findIdx? fun source => Alias.collide source.aliasName aliasName).map
        fun number => (0, number) := by
  rw [referent?]
  cases block.sources.findIdx? fun source => Alias.collide source.aliasName aliasName <;> rfl

theorem referent?_eq_none_iff (scope : List Block) :
    referent? scope aliasName = none ↔ Free scope aliasName := by
  induction scope with
  | nil => simp [referent?, Free]
  | cons block around ih =>
      rw [← List.singleton_append, free_append, free_singleton_iff, ← ih,
        List.singleton_append, referent?]
      cases block.sources.findIdx? fun source => Alias.collide source.aliasName aliasName <;> simp

/-- The blocks around are looked at if those inside have no such source. -/
theorem referent?_append (inside around : List Block) :
    referent? (inside ++ around) aliasName =
      match referent? inside aliasName with
      | some (level, number) => some (level + around.length, number)
      | none => referent? around aliasName := by
  induction inside with
  | nil => rfl
  | cons block rest ih =>
      rw [List.cons_append, referent?, referent?]
      cases block.sources.findIdx? fun source => Alias.collide source.aliasName aliasName with
      | some number => simp
      | none => exact ih

theorem referent?_of_free {inside : List Block} (h : Free inside aliasName)
    (around : List Block) : referent? (inside ++ around) aliasName = referent? around aliasName := by
  rw [referent?_append, (referent?_eq_none_iff inside).mpr h]

/-! ## A further source -/

section

variable {block after inner : Block} {source : Source}

/-- A further source is referred to by what has its alias and refers to no other
source of the block. -/
theorem referent?_of_sources (h : after.sources = block.sources ++ [source]) :
    referent? [after] aliasName =
      if Free [block] aliasName ∧ Text.lowercase source.aliasName = Text.lowercase aliasName then
        some (0, block.sources.length)
      else referent? [block] aliasName := by
  simp only [free_singleton_iff, referent?_singleton]
  rw [h, List.findIdx?_append]
  cases block.sources.findIdx? fun other => Alias.collide other.aliasName aliasName with
  | some number => simp
  | none =>
      by_cases hcollide : Text.lowercase source.aliasName = Text.lowercase aliasName <;>
        simp [Alias.collide, hcollide]

theorem referent?_inside (h : after.sources = block.sources ++ [source]) (inside : List Block) :
    referent? (inside ++ [after]) aliasName =
      if Free (inside ++ [block]) aliasName ∧
          Text.lowercase source.aliasName = Text.lowercase aliasName then
        some (0, block.sources.length)
      else referent? (inside ++ [block]) aliasName := by
  simp only [free_append, ← referent?_eq_none_iff inside]
  rw [referent?_append, referent?_append]
  cases referent? inside aliasName with
  | some found => simp
  | none => simp [referent?_of_sources h]

end

/-! ## Joins -/

namespace Block

variable {config : Config} {block inner after : Block} {remapping : JoinRemapping}

theorem mem_expressions_of_addJoin (h : block.addJoin config inner = ⟨.ok remapping, after⟩)
    (houter : block.bound.keys.Nodup) (hinner : inner.bound.keys.Nodup) {expression : Expr}
    (hmem : expression ∈ block.expressions) : expression ∈ after.expressions := by
  have hentries := (addJoin_bound h houter hinner).2.2
  obtain ⟨-, outer, mapping, source, hprojection, -, -, -, -, rfl⟩ := addJoin_eq_ok h
  have hshown : expression ∈ block.projection.expressions → expression ∈
      (Projection.pending (.ofList (joinedEntries (block.freshSourceAlias config.joinAlias)
        outer mapping))).expressions := by
    intro hexpression
    rw [hprojection] at hexpression
    obtain ⟨projected, hprojected, rfl⟩ := List.mem_map.mp hexpression
    obtain ⟨entry, hentry, rfl⟩ := List.mem_map.mp hprojected
    refine List.mem_map_of_mem (List.mem_map.mpr ⟨(entry.1.prepend outerStep, entry.2), ?_, rfl⟩)
    rw [bound] at hentries
    rw [hentries, bound, hprojection]
    exact List.mem_append_left _ (List.mem_map.mpr ⟨entry, hentry, rfl⟩)
  have hiterated : expression ∈ block.sources.filterMap Source.collection? →
      expression ∈ (block.sources ++ [source]).filterMap Source.collection? := by
    rw [List.filterMap_append]
    exact List.mem_append_left _
  simp only [expressions, List.mem_append] at hmem ⊢
  exact hmem.imp_left (Or.imp_left (Or.imp_left (Or.imp_left (Or.imp hshown hiterated))))

theorem Mentions.addJoin (h : block.addJoin config inner = ⟨.ok remapping, after⟩)
    (houter : block.bound.keys.Nodup) (hinner : inner.bound.keys.Nodup) {inside : List Block}
    {aliasName : String} (hmentions : block.Mentions inside aliasName) :
    after.Mentions inside aliasName := by
  obtain ⟨⟨source, hsources, -⟩, -, hrest⟩ := addJoin_sources h
  cases hmentions with
  | expression hexpression hinside =>
      refine .expression ?_ hinside
      have hkeys : after.keyBindings = block.keyBindings := by rw [hrest]
      rw [hkeys]
      rw [List.mem_append] at hexpression ⊢
      exact hexpression.imp_left (mem_expressions_of_addJoin h houter hinner)
  | source hblock hinside =>
      refine .source ?_ hinside
      rw [sourceBlocks, hsources, List.filterMap_append]
      exact List.mem_append_left _ hblock

theorem mem_expressions_of_sources {source : Source} {array : Expr}
    (h : source ∈ block.sources) (harray : source.collection? = some array) :
    array ∈ block.expressions := by
  have hmem : array ∈ block.sources.filterMap Source.collection? :=
    List.mem_filterMap.mpr ⟨source, h, harray⟩
  simp [expressions, hmem]

/-- The alias of a joined source is the first made from the configured base that
no source of the block has. Every reference in the block refers to what it
referred to before, except one that was free and has the picked alias, which
refers to the joined source. It is the same with the references in an array that
is iterated over directly, as far as they are free in the inner block and could
refer to sources of the outer one only. -/
theorem addJoin_referents (h : block.addJoin config inner = ⟨.ok remapping, after⟩) :
    Alias.IsFirstFree (block.sources.map (·.aliasName)) config.joinAlias remapping.aliasName ∧
      (∀ inside aliasName, block.Mentions inside aliasName →
        (block.bound.keys.Nodup → inner.bound.keys.Nodup → after.Mentions inside aliasName) ∧
          referent? (inside ++ [after]) aliasName =
            if Free (inside ++ [block]) aliasName ∧
                Text.lowercase remapping.aliasName = Text.lowercase aliasName then
              some (0, block.sources.length)
            else referent? (inside ++ [block]) aliasName) ∧
      ∀ array, after.sources = block.sources ++ [⟨.collection array, remapping.aliasName, true⟩] →
        ∀ inside aliasName, array.Mentions inside aliasName →
          Free (inside ++ [inner]) aliasName →
            after.Mentions inside aliasName ∧
              referent? (inside ++ [after]) aliasName =
                if Free [block] aliasName ∧
                    Text.lowercase remapping.aliasName = Text.lowercase aliasName then
                  some (0, block.sources.length)
                else referent? (inside ++ [inner, block]) aliasName := by
  have hfirst : Alias.IsFirstFree (block.sources.map (·.aliasName)) config.joinAlias
      remapping.aliasName := by
    obtain ⟨-, outer, mapping, source, -, -, -, -, rfl, -⟩ := addJoin_eq_ok h
    exact Alias.isFirstFree_fresh _ _
  obtain ⟨source, hsources, halias⟩ := (addJoin_sources h).1
  refine ⟨hfirst, fun inside aliasName hmentions => ⟨?_, ?_⟩, ?_⟩
  · exact fun houter hinner => hmentions.addJoin h houter hinner
  · rw [referent?_inside hsources, halias]
  · intro array harray inside aliasName hmentions hfree
    have hadded : ⟨.collection array, remapping.aliasName, true⟩ ∈ after.sources := by
      rw [harray]
      exact List.mem_append_right _ List.mem_cons_self
    have hmem := mem_expressions_of_sources hadded rfl
    refine ⟨.expression (List.mem_append_left _ hmem) hmentions, ?_⟩
    have hinside := ((free_append inside [inner]).mp hfree).1
    rw [referent?_of_free hinside, referent?_of_sources harray, List.append_cons,
      referent?_of_free hfree]

/-- The documents of a blog are joined with their tags, and the reference to the
documents goes on to refer to them. -/
theorem addJoin_referents_tags :
    let tags := Expr.property (.objectReference "Blog" "c") "Tags" .array
    let block := forEntity .default "Blog"
    let inner := overCollection tags "t" (.scalar (.scalarReference "t" .string))
    ∃ remapping after, block.addJoin .default inner = ⟨.ok remapping, after⟩ ∧
      Alias.IsFirstFree ["c"] "a" remapping.aliasName ∧ after.Mentions [] "c" ∧
        referent? [after] "c" = some (0, 0) := by
  intro tags block inner
  obtain ⟨remapping, after, hjoin⟩ :
      ∃ remapping after, block.addJoin .default inner = ⟨.ok remapping, after⟩ := ⟨_, _, rfl⟩
  obtain ⟨hfirst, hkept, -⟩ := addJoin_referents hjoin
  have hmentions : block.Mentions [] "c" :=
    .expression List.mem_cons_self (.objectReference "Blog" "c")
  obtain ⟨hstays, hrefers⟩ := hkept [] "c" hmentions
  have hbound : ¬ Free [block] "c" := by decide +kernel
  refine ⟨remapping, after, hjoin, hfirst, ?_, ?_⟩
  · exact hstays (List.nodup_singleton _) (List.nodup_singleton _)
  · rw [List.nil_append, List.nil_append, if_neg fun hcaught => hbound hcaught.1] at hrefers
    rw [hrefers]
    decide +kernel

/-- The posts of a blog, those that are titled as some tag in the query around,
are joined with their own tags: the alias of the tag around is picked again. -/
theorem addJoin_captures :
    let post := Expr.scalarReference "p" .object
    let posts := Expr.property (.objectReference "Blog" "c") "Posts" .array
    let condition := Expr.binary .equal (.property post "Title" .string)
      (.scalarReference "a" .string) .boolean
    let block := (overCollection posts "p" (.scalar post)).filter condition
    let inner := overCollection (.property post "Tags" .array) "t"
      (.scalar (.scalarReference "t" .string))
    ∃ remapping after, block.addJoin .default inner = ⟨.ok remapping, after⟩ ∧
      (¬ ∀ inside aliasName, block.Mentions inside aliasName →
        Free (inside ++ [block]) aliasName →
          Text.lowercase remapping.aliasName ≠ Text.lowercase aliasName) ∧
      referent? [block] "a" = none ∧ referent? [after] "a" = some (0, 1) := by
  intro post posts condition block inner
  have hpredicate : block.predicate = some condition := rfl
  have hcondition : condition ∈ block.expressions := by simp [expressions, hpredicate]
  have hwithin : condition.Mentions [] "a" :=
    .part (List.mem_cons_of_mem _ List.mem_cons_self) (.scalarReference "a" .string)
  have hmentions : block.Mentions [] "a" :=
    .expression (List.mem_append_left _ hcondition) hwithin
  have hfree : Free [block] "a" := by decide +kernel
  refine ⟨_, _, rfl, ?_, ?_, ?_⟩
  · intro hspared
    exact hspared [] "a" hmentions hfree (by decide +kernel)
  · decide +kernel
  · decide +kernel

end Block

end DocumentQuery
