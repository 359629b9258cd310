import DocumentQuery.Proofs.FrozenColumns
import DocumentQuery.Proofs.Invariants
import DocumentQuery.Proofs.Joins
/-!
# When a join is refused, and what it adds

`JoinRefusal` lists why a join is refused, each reason under the condition that
none before it applies, with the error that is answered. A block that binds its
root alone and no position twice has at most one column when it is frozen, so the
freezing inside of a join can fail only for want of a column
(`settle_of_roots`). Where the join succeeds, the source that it adds iterates
over an array exactly if the inner block does nothing but put out its items
(`PutsOutItemsOf`). Any other inner block is nested with its columns and without
bindings (`IsNested`).
-/

namespace DocumentQuery

namespace Block

/-- Why a block cannot be joined with `inner`. -/
inductive JoinRefusal (block inner : Block) : PlanError → Prop where
  /-- The block is read by its key. -/
  | pointRead (pointRead : PointRead) (hroute : block.pointRead = some pointRead) :
      JoinRefusal block inner
        (.structural ("JOIN on point read of " ++ pointRead.entityType) .joinOnPointRead)
  /-- One of the blocks is frozen. -/
  | frozen (hroute : block.pointRead = none)
      (hfrozen : block.projection.isFrozen = true ∨ inner.projection.isFrozen = true) :
      JoinRefusal block inner (.structural "JOIN" .projectionAlreadyApplied)
  /-- The inner block binds a position that is not its root; the first one is
  named. -/
  | position {outer mapping : Mapping Projected} {before after : List Member} {member : Member}
      (hroute : block.pointRead = none) (houter : block.projection = .pending outer)
      (hinner : inner.projection = .pending mapping)
      (hkeys : mapping.keys = before ++ member :: after) (hbefore : ∀ root ∈ before, root = .root)
      (hmember : member ≠ .root) :
      JoinRefusal block inner (.complexProjection member)
  /-- The inner block selects a single value and binds nothing. -/
  | noColumn {outer : Mapping Projected} (hroute : block.pointRead = none)
      (houter : block.projection = .pending outer) (hinner : inner.projection = .pending .empty)
      (hsingle : inner.singleValue = true) :
      JoinRefusal block inner (.structural "" .singleValueArity)

/-- The block puts out the items of an array and does nothing else. -/
structure PutsOutItemsOf (block : Block) (array : Expr) : Prop where
  predicate : block.predicate = none
  orderings : block.orderings = []
  limit : block.limit = none
  offset : block.offset = none
  distinct : block.distinct = false
  singleValue : block.singleValue = true
  /-- The root is bound to the alias of the only source, which iterates over the
  array, and nothing else is bound. -/
  items : ∃ aliasName reference type,
    block.sources = [⟨.collection array, aliasName, true⟩] ∧
      block.projection = .pending ⟨[(.root, .scalar (.scalarReference reference type))]⟩ ∧
      Text.lowercase reference = Text.lowercase aliasName
  path : array.Path

/-- The payload is the block with the columns that freezing makes of its bindings,
and with no bindings left. -/
def IsNested (block : Block) (payload : Payload) : Prop :=
  ∃ mapping columns bindings,
    block.projection = .pending mapping ∧
      MadeFrom defaultColumnAlias mapping.entries columns bindings ∧
      block.applyProjection =
        ⟨.ok (), { block with projection := .frozen columns bindings }⟩ ∧
      payload = .select { block with projection := .frozen columns .empty }

variable {inner : Block} {mapping : Mapping Projected}

/-! ## Blocks that bind their root alone -/

theorem first_member_iff (mapping : Mapping Projected) (member : Member) :
    (mapping.keys.find? fun member => !member.isRoot) = some member ↔
      member ≠ .root ∧ ∃ before after, mapping.keys = before ++ member :: after ∧
        ∀ root ∈ before, root = .root := by
  rw [List.find?_eq_some_iff_append]
  simp [← Bool.not_eq_true]

/-- A mapping that binds no position but the root, and not twice, binds at most
one. -/
theorem entries_of_roots (hnodup : mapping.keys.Nodup)
    (hroots : ∀ member ∈ mapping.keys, member = .root) :
    mapping.entries = [] ∨ ∃ projected, mapping.entries = [(.root, projected)] := by
  rcases mapping with ⟨entries⟩
  match entries with
  | [] => exact Or.inl rfl
  | [(member, projected)] =>
      obtain rfl := hroots member (by simp [OrderedMap.keys])
      exact Or.inr ⟨projected, rfl⟩
  | (first, _) :: (second, _) :: rest =>
      have hfirst := hroots first (by simp [OrderedMap.keys])
      have hsecond := hroots second (by simp [OrderedMap.keys])
      have hne : first ≠ second := by
        simp only [OrderedMap.keys, List.map_cons, List.nodup_cons, List.mem_cons, not_or] at hnodup
        exact hnodup.1.1
      exact absurd (hfirst.trans hsecond.symm) hne

/-- Such a block settles unless it selects a single value and binds nothing. -/
theorem settle_of_roots (h : inner.projection = .pending mapping) (hnodup : mapping.keys.Nodup)
    (hroots : ∀ member ∈ mapping.keys, member = .root) (error : PlanError) :
    inner.settle = .error error ↔
      inner.singleValue = true ∧ mapping = .empty ∧ error = .structural "" .singleValueArity := by
  rw [settle_pending h]
  rcases entries_of_roots hnodup hroots with hentries | ⟨projected, hentries⟩
  · have hempty : mapping = .empty := congrArg OrderedMap.mk hentries
    rw [hentries]
    by_cases hsingle : inner.singleValue = true
    · rw [if_pos ⟨hsingle, by simp [freezeFrom]⟩]
      simp [hsingle, hempty, freezeFrom, columnsText, Text.commaSeparated, eq_comm]
    · simp [hsingle]
  · have hone : (freezeFrom defaultColumnAlias [] .empty mapping.entries).1.length = 1 := by
      rw [hentries]
      simp [freezeFrom, pushColumn, columnOf?]
    have hsome : mapping ≠ .empty := by
      rintro rfl
      simp [OrderedMap.empty] at hentries
    rw [if_neg (fun harity => harity.2 hone)]
    simp [hsome]

theorem onlyProjected?_eq_some_iff (h : inner.projection = .pending mapping)
    (projected : Projected) :
    inner.onlyProjected? = some projected ↔ mapping = ⟨[(.root, projected)]⟩ := by
  rw [onlyProjected?, h]
  rcases mapping with ⟨entries⟩
  match entries with
  | [] => simp [OrderedMap.size]
  | [(member, found)] =>
      by_cases hroot : member = .root <;>
        simp [OrderedMap.size, OrderedMap.get?, OrderedMap.lookupEntry, hroot]
  | first :: second :: rest => simp [OrderedMap.size]

theorem isRestricted_eq_false_iff (block : Block) :
    block.isRestricted = false ↔
      block.predicate = none ∧ block.orderings = [] ∧ block.limit = none ∧
        block.offset = none ∧ block.distinct = false := by
  simp [isRestricted, isPaged, and_assoc]

theorem bareArray?_filter_eq_some_iff (h : inner.projection = .pending mapping) (array : Expr) :
    inner.bareArray?.filter Expr.isPath = some array ↔ inner.PutsOutItemsOf array := by
  rw [Option.filter_eq_some_iff, Expr.isPath_iff]
  constructor
  · rintro ⟨hbare, hpath⟩
    unfold bareArray? at hbare
    split at hbare
    · simp at hbare
    · rename_i hplain
      simp only [Bool.or_eq_true, not_or, Bool.not_eq_true, Bool.not_eq_false',
        isRestricted_eq_false_iff] at hplain
      obtain ⟨⟨hpredicate, horderings, hlimit, hoffset, hdistinct⟩, hsingle⟩ := hplain
      split at hbare
      · rename_i found aliasName reference type hsources hprojected
        split at hbare
        · rename_i hcollide
          obtain rfl := Option.some.inj hbare
          rw [onlyProjected?_eq_some_iff h] at hprojected
          refine ⟨hpredicate, horderings, hlimit, hoffset, hdistinct, hsingle, ?_, hpath⟩
          exact ⟨aliasName, reference, type, hsources, hprojected ▸ h, by
            simpa [Alias.collide] using hcollide⟩
        · simp at hbare
      · simp at hbare
  · intro hputs
    obtain ⟨aliasName, reference, type, hsources, hprojection, hcollide⟩ := hputs.items
    have hplain : inner.isRestricted = false :=
      (isRestricted_eq_false_iff inner).mpr
        ⟨hputs.predicate, hputs.orderings, hputs.limit, hputs.offset, hputs.distinct⟩
    have hprojected := (onlyProjected?_eq_some_iff hprojection _).mpr rfl
    refine ⟨?_, hputs.path⟩
    simp [bareArray?, hplain, hputs.singleValue, hsources, hprojected, Alias.collide, hcollide]

/-! ## Refused joins -/

theorem joinSource_eq_error_iff (h : inner.projection = .pending mapping)
    (hnodup : mapping.keys.Nodup) (hroots : ∀ member ∈ mapping.keys, member = .root)
    (aliasName : String) (error : PlanError) :
    inner.joinSource aliasName = .error error ↔
      inner.singleValue = true ∧ mapping = .empty ∧ error = .structural "" .singleValueArity := by
  rw [← settle_of_roots h hnodup hroots error, joinSource]
  cases hbare : inner.bareArray?.filter Expr.isPath with
  | some array =>
      -- a block that puts out the items of an array binds its root
      have hputs := (bareArray?_filter_eq_some_iff h array).mp hbare
      obtain ⟨-, reference, type, -, hprojection, -⟩ := hputs.items
      rw [settle_of_roots h hnodup hroots error]
      obtain rfl := Projection.pending.inj (h.symm.trans hprojection)
      simp [OrderedMap.empty]
  | none =>
      cases hsettle : inner.settle with
      | error found => simp [applyProjection_of_settle_error hsettle]
      | ok settled => simp [applyProjection_of_settle hsettle]

theorem joinParts_eq_error_iff (h : inner.projection = .pending mapping)
    (aliasName : String) (outer : Mapping Projected) (error : PlanError) :
    inner.joinParts aliasName outer = .error error ↔
      match mapping.keys.find? fun member => !member.isRoot with
      | some member => error = .complexProjection member
      | none => inner.joinSource aliasName = .error error := by
  rw [joinParts, h]
  dsimp only
  cases mapping.keys.find? fun member => !member.isRoot with
  | some member => simp [eq_comm]
  | none => cases inner.joinSource aliasName <;> simp

section

variable {config : Config} {block : Block} {outer : Mapping Projected} {error : PlanError}

theorem answer_addJoin_of_pending (hroute : block.pointRead = none)
    (houter : block.projection = .pending outer) :
    (block.addJoin config inner).answer = .error error ↔
      inner.joinParts (block.freshSourceAlias config.joinAlias) outer = .error error := by
  rw [addJoin, hroute, houter]
  dsimp only
  cases inner.joinParts (block.freshSourceAlias config.joinAlias) outer <;> simp [refuse]

theorem JoinRefusal.answer_addJoin (h : JoinRefusal block inner error) :
    (block.addJoin config inner).answer = .error error := by
  cases h with
  | pointRead pointRead hroute => simp [addJoin, hroute, reject, refuse]
  | frozen hroute hfrozen =>
      cases houter : block.projection with
      | frozen columns bindings => simp [addJoin, hroute, houter, reject, refuse]
      | pending outer =>
          rw [answer_addJoin_of_pending hroute houter]
          cases hinner : inner.projection with
          | frozen columns bindings => simp [joinParts, hinner]
          | pending mapping => simp [houter, hinner, Projection.isFrozen] at hfrozen
  | position hroute houter hinner hkeys hbefore hmember =>
      have hfirst := (first_member_iff _ _).mpr ⟨hmember, _, _, hkeys, hbefore⟩
      rw [answer_addJoin_of_pending hroute houter, joinParts_eq_error_iff hinner, hfirst]
  | noColumn hroute houter hinner hsingle =>
      rw [answer_addJoin_of_pending hroute houter, joinParts_eq_error_iff hinner]
      refine (joinSource_eq_error_iff hinner ?_ ?_ _ _).mpr ⟨hsingle, rfl, rfl⟩
      · simp [OrderedMap.keys, OrderedMap.empty]
      · simp [OrderedMap.keys, OrderedMap.empty]

theorem joinRefusal_of_answer (hnodup : inner.bound.keys.Nodup)
    (h : (block.addJoin config inner).answer = .error error) : JoinRefusal block inner error := by
  cases hroute : block.pointRead with
  | some pointRead =>
      have hrefusal : JoinRefusal block inner _ := .pointRead pointRead hroute
      rw [hrefusal.answer_addJoin] at h
      exact Except.error.inj h ▸ hrefusal
  | none =>
      by_cases hfrozen : block.projection.isFrozen = true ∨ inner.projection.isFrozen = true
      · have hrefusal : JoinRefusal block inner _ := .frozen hroute hfrozen
        rw [hrefusal.answer_addJoin] at h
        exact Except.error.inj h ▸ hrefusal
      · cases houter : block.projection with
        | frozen columns bindings => simp [houter, Projection.isFrozen] at hfrozen
        | pending outer =>
            cases hinner : inner.projection with
            | frozen columns bindings => simp [hinner, Projection.isFrozen] at hfrozen
            | pending mapping =>
                rw [answer_addJoin_of_pending hroute houter, joinParts_eq_error_iff hinner] at h
                cases hfind : mapping.keys.find? fun member => !member.isRoot with
                | some member =>
                    rw [hfind] at h
                    obtain ⟨hmember, before, after, hkeys, hbefore⟩ :=
                      (first_member_iff mapping member).mp hfind
                    rw [h]
                    exact .position hroute houter hinner hkeys hbefore hmember
                | none =>
                    rw [hfind] at h
                    have hroots : ∀ member ∈ mapping.keys, member = .root := by
                      simpa using hfind
                    have hkeys : mapping.keys.Nodup := by
                      rwa [bound, hinner] at hnodup
                    obtain ⟨hsingle, rfl, rfl⟩ :=
                      (joinSource_eq_error_iff hinner hkeys hroots _ error).mp h
                    exact .noColumn hroute houter hinner hsingle

end

/-! ## What is added -/

/-- What freezing makes of the bindings comes into the source, but not the numbers
of the columns. -/
theorem isNested_of_settle (h : inner.projection = .pending mapping)
    (hnodup : mapping.keys.Nodup) {columns : List Column} {bindings : Mapping Nat}
    (hsettle : inner.settle = .ok (columns, bindings)) :
    inner.IsNested (.select (inner.withProjection (.frozen columns .empty))) := by
  have hentries : (([] ++ mapping.entries).map Prod.fst).Nodup := hnodup
  have hmade := (MadeFrom.empty defaultColumnAlias).freezeFrom hentries
  rw [((settle_pending_eq_ok_iff h columns bindings).mp hsettle).1, List.nil_append] at hmade
  exact ⟨mapping, columns, bindings, h, hmade, applyProjection_of_settle hsettle, rfl⟩

/-- The source is the iterated array exactly if the inner block puts out the
items of that, and else the inner block as a frozen query without bindings. -/
theorem joinSource_cases (h : inner.projection = .pending mapping) (hnodup : mapping.keys.Nodup)
    {aliasName : String} {source : Source} (hsource : inner.joinSource aliasName = .ok source) :
    (∀ array, source = ⟨.collection array, aliasName, true⟩ ↔ inner.PutsOutItemsOf array) ∧
      ((∀ array, ¬ inner.PutsOutItemsOf array) →
        ∃ payload, source = ⟨payload, aliasName, false⟩ ∧ inner.IsNested payload) := by
  simp only [← bareArray?_filter_eq_some_iff h]
  unfold joinSource at hsource
  split at hsource
  · rename_i found hfound
    have hpath := (Option.filter_eq_some_iff.mp hfound).2
    rw [Source.iterate, if_pos hpath, Except.ok.injEq] at hsource
    rw [hfound, ← hsource]
    simp
  · rename_i hnone
    rw [hnone]
    cases hsettle : inner.settle with
    | error error => simp [applyProjection_of_settle_error hsettle] at hsource
    | ok settled =>
        rcases settled with ⟨columns, bindings⟩
        simp only [applyProjection_of_settle hsettle, Except.ok.injEq] at hsource
        rw [← hsource]
        refine ⟨by simp [Source.nested], fun _ => ?_⟩
        exact ⟨_, rfl, isNested_of_settle h hnodup hsettle⟩

/-- A join is refused for exactly the reasons of `JoinRefusal`, and then leaves
the block as it is. Where it succeeds it adds one source: the array itself if
the inner block does nothing but put out the items of a path, else the inner
block with its columns and without bindings. -/
theorem addJoin_outcome (config : Config) (block : Block) {inner : Block}
    (h : inner.bound.keys.Nodup) :
    (∀ error, (block.addJoin config inner).answer = .error error ↔
        JoinRefusal block inner error) ∧
      (∀ error, (block.addJoin config inner).answer = .error error →
        (block.addJoin config inner).block = block) ∧
      ∀ remapping, (block.addJoin config inner).answer = .ok remapping →
        ∃ source,
          (block.addJoin config inner).block.sources = block.sources ++ [source] ∧
          (∀ array, source = ⟨.collection array, remapping.aliasName, true⟩ ↔
            inner.PutsOutItemsOf array) ∧
          ((∀ array, ¬ inner.PutsOutItemsOf array) →
            ∃ payload, source = ⟨payload, remapping.aliasName, false⟩ ∧
              inner.IsNested payload) := by
  refine ⟨fun error => ⟨joinRefusal_of_answer h, JoinRefusal.answer_addJoin⟩,
    fun error => addJoin_of_error, fun remapping hanswer => ?_⟩
  cases hjoin : block.addJoin config inner with
  | mk answer after =>
      rw [hjoin] at hanswer
      obtain rfl : answer = .ok remapping := hanswer
      obtain ⟨-, outer, mapping, source, -, hinner, -, hsource, rfl, rfl⟩ := addJoin_eq_ok hjoin
      have hnodup : mapping.keys.Nodup := by rwa [bound, hinner] at h
      exact ⟨source, rfl, joinSource_cases hinner hnodup hsource⟩

/-- The tags of a blog are iterated over without a nested query, although the
alias they are referred to by is written with a capital. Posts of which the title
is put out are nested with the column of the title, which nothing is bound to. -/
theorem addJoin_outcome_tags_posts :
    let tags := Expr.property (.objectReference "Blog" "c") "Tags" .array
    let title := Projected.scalar (.property (.objectReference "Post" "c") "Title" .string)
    let block := forEntity .default "Blog"
    let inner := overCollection tags "t" (.scalar (.scalarReference "T" .string))
    let posts := (forEntity .default "Post").withProjection (.pending ⟨[(.root, title)]⟩)
    inner.bound.keys.Nodup ∧ posts.bound.keys.Nodup ∧
      (∃ remapping, (block.addJoin .default inner).answer = .ok remapping ∧
        (block.addJoin .default inner).block.sources =
          block.sources ++ [⟨.collection tags, remapping.aliasName, true⟩]) ∧
      ∃ remapping, (block.addJoin .default posts).answer = .ok remapping ∧
        (block.addJoin .default posts).block.sources = block.sources ++
          [⟨.select (posts.withProjection (.frozen [⟨title, "Title"⟩] .empty)),
            remapping.aliasName, false⟩] := by
  intro tags title block inner posts
  have hinner : inner.bound.keys.Nodup := List.nodup_singleton _
  have hposts : posts.bound.keys.Nodup := List.nodup_singleton _
  refine ⟨hinner, hposts, ?_, ?_⟩
  · have hputs : inner.PutsOutItemsOf tags := {
      predicate := rfl
      orderings := rfl
      limit := rfl
      offset := rfl
      distinct := rfl
      singleValue := rfl
      items := ⟨"t", "T", .string, rfl, rfl, by decide +kernel⟩
      path := .property "Tags" .array (.objectReference "Blog" "c") }
    obtain ⟨remapping, hanswer⟩ :
        ∃ remapping, (block.addJoin .default inner).answer = .ok remapping := ⟨_, rfl⟩
    obtain ⟨-, -, hjoined⟩ := addJoin_outcome .default block hinner
    obtain ⟨source, hsources, harray, -⟩ := hjoined remapping hanswer
    exact ⟨remapping, hanswer, (harray tags).mpr hputs ▸ hsources⟩
  · have hlist : ∀ array, ¬ posts.PutsOutItemsOf array := by
      intro array hputs
      exact absurd hputs.singleValue (by decide)
    obtain ⟨remapping, hanswer⟩ :
        ∃ remapping, (block.addJoin .default posts).answer = .ok remapping := ⟨_, rfl⟩
    obtain ⟨-, -, hjoined⟩ := addJoin_outcome .default block hposts
    obtain ⟨source, hsources, -, hnested⟩ := hjoined remapping hanswer
    obtain ⟨_, rfl, mapping, columns, bindings, -, -, hfrozen, rfl⟩ := hnested hlist
    have hcomputed : posts.applyProjection = ⟨.ok (), posts.withProjection
        (.frozen [⟨title, "Title"⟩] ⟨[(.root, 0)]⟩)⟩ := rfl
    have hprojection := congrArg (fun outcome => outcome.block.projection)
      (hcomputed.symm.trans hfrozen)
    obtain ⟨rfl, -⟩ := Projection.frozen.inj hprojection
    exact ⟨remapping, hanswer, hsources⟩

end Block

end DocumentQuery
