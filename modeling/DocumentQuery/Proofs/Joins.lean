import DocumentQuery.Proofs.Alias
import DocumentQuery.Proofs.Calls
import DocumentQuery.Proofs.OrderedMap
/-!
# Runs of joins

A block is joined with others one after the other, and filtered, sorted and
paged in between (`Joins`). Each join moves the positions of the block under
`Outer` and adds that of the inner block under `Inner`, so that no two of them
fall together (`Join.Faithful`). A position is followed through a run with
`carried`: it stays bound to the same expression, and the position of an inner
block to a reference to the source that its own join added.
-/

namespace DocumentQuery

/-- What the positions of a pending block are bound to. -/
def Block.bound (block : Block) : Mapping Projected :=
  match block.projection with
  | .pending mapping => mapping
  | .frozen _ _ => .empty

/-- A join that succeeded: the blocks that were joined, the block that came of
it, and how the positions moved. -/
structure Join where
  before : Block
  inner : Block
  remapping : JoinRemapping
  after : Block

/-- `Joins block joins after` says that `after` comes of `block` by the given
joins in this order, with calls in between that leave the shape alone. No inner
block binds a position twice. -/
inductive Joins : Block → List Join → Block → Prop where
  | done (block : Block) : Joins block [] block
  | call {block after : Block} {joins : List Join} (call : Call) (hcall : call.keepsShape = true)
      (hrest : Joins (block.perform call).block joins after) : Joins block joins after
  | join {block inner middle after : Block} {joins : List Join} {remapping : JoinRemapping}
      (config : Config) (hinner : inner.bound.keys.Nodup)
      (hjoin : block.addJoin config inner = ⟨.ok remapping, middle⟩)
      (hrest : Joins middle joins after) :
      Joins block (⟨block, inner, remapping, middle⟩ :: joins) after

/-- Where a position of the outer block is after several joins. -/
def carried : List JoinRemapping → Member → Option Member
  | [], member => some member
  | remapping :: rest, member => (remapping.remapOuter member).bind (carried rest)

/-! ## Moved positions -/

/-- Looking up where a position moved finds it under the field, if it is one of
the table. -/
theorem lookupEntry_movedUnder_iff {α : Type} (step : Step) (mapping : Mapping α)
    (member place : Member) :
    OrderedMap.lookupEntry member (movedUnder step mapping) = some place ↔
      member ∈ mapping.keys ∧ place = member.prepend step := by
  rw [movedUnder]
  induction mapping.keys with
  | nil => simp [OrderedMap.lookupEntry]
  | cons first rest ih =>
      rw [List.map_cons, OrderedMap.lookupEntry]
      by_cases hfirst : first = member
      · subst hfirst
        simp [eq_comm]
      · rw [if_neg hfirst, ih, List.mem_cons]
        have hother : member ≠ first := fun h => hfirst h.symm
        simp [hother]

theorem prepend_outerStep_ne (a b : Member) : a.prepend outerStep ≠ b.prepend innerStep := by
  simp [Member.prepend, outerStep, innerStep]

theorem keys_joinedEntries (aliasName : String) (outer mapping : Mapping Projected) :
    (Block.joinedEntries aliasName outer mapping).map Prod.fst =
      outer.keys.map (Member.prepend · outerStep) ++
        mapping.keys.map (Member.prepend · innerStep) := by
  simp [Block.joinedEntries, OrderedMap.keys, Function.comp_def]

theorem nodup_joinedEntries (aliasName : String) {outer mapping : Mapping Projected}
    (houter : outer.keys.Nodup) (hmapping : mapping.keys.Nodup) :
    ((Block.joinedEntries aliasName outer mapping).map Prod.fst).Nodup := by
  rw [keys_joinedEntries, List.nodup_append]
  refine ⟨List.Pairwise.map _ ?_ houter, List.Pairwise.map _ ?_ hmapping, ?_⟩
  · exact fun a b hne h => hne (Member.prepend_injective h)
  · exact fun a b hne h => hne (Member.prepend_injective h)
  · intro place hplace other hother
    obtain ⟨a, -, rfl⟩ := List.mem_map.mp hplace
    obtain ⟨b, -, rfl⟩ := List.mem_map.mp hother
    exact prepend_outerStep_ne a b

/-! ## One join -/

/-- What a join owes to the positions and sources of the blocks that it joins. -/
structure Join.Faithful (join : Join) : Prop where
  /-- Every position of the outer block is moved to a position, and no other one
  is moved. -/
  outer_total : ∀ member, member ∈ join.before.bound.keys ↔
    ∃ place ∈ join.after.bound.keys, join.remapping.remapOuter member = some place
  /-- No two of them are moved to the same one. -/
  outer_injective : ∀ a b place, join.remapping.remapOuter a = some place →
    join.remapping.remapOuter b = some place → a = b
  /-- Every position of the inner block is moved to a position, and no other one
  is moved. -/
  inner_total : ∀ member, member ∈ join.inner.bound.keys ↔
    ∃ place ∈ join.after.bound.keys, join.remapping.remapInner member = some place
  /-- Positions of the one block are not moved to where those of the other are. -/
  disjoint : ∀ a b place, join.remapping.remapOuter a = some place →
    join.remapping.remapInner b ≠ some place
  /-- There are no positions but those that were moved. -/
  exhaustive : ∀ place ∈ join.after.bound.keys,
    (∃ member, join.remapping.remapOuter member = some place) ∨
      ∃ member, join.remapping.remapInner member = some place
  /-- One source is added, behind those that were there. -/
  sources : ∃ source, join.after.sources = join.before.sources ++ [source] ∧
    source.aliasName = join.remapping.aliasName
  /-- Its alias collides with no other. -/
  fresh : Alias.isTaken (join.before.sources.map (·.aliasName)) join.remapping.aliasName = false
  /-- The rest of the block stays. -/
  rest : join.after = { join.before with
    sources := join.after.sources
    projection := join.after.projection }

/-- How the positions move in a join, and what they are bound to after it. -/
theorem Block.addJoin_bound {config : Config} {block inner after : Block}
    {remapping : JoinRemapping} (h : block.addJoin config inner = ⟨.ok remapping, after⟩)
    (houter : block.bound.keys.Nodup) (hinner : inner.bound.keys.Nodup) :
    remapping.outer = movedUnder outerStep block.bound ∧
      remapping.inner = movedUnder innerStep inner.bound ∧
      after.bound.entries = joinedEntries remapping.aliasName block.bound inner.bound := by
  obtain ⟨-, outer, mapping, source, hprojection, hprojected, -, -, rfl, rfl⟩ := addJoin_eq_ok h
  have hbound : block.bound = outer := by rw [bound, hprojection]
  have hmapping : inner.bound = mapping := by rw [bound, hprojected]
  rw [hbound] at houter ⊢
  rw [hmapping] at hinner ⊢
  exact ⟨rfl, rfl, OrderedMap.entries_ofList (nodup_joinedEntries _ houter hinner)⟩

/-- A join adds one source, under an alias of its own, and changes nothing but
the sources and the projection. -/
theorem Block.addJoin_sources {config : Config} {block inner after : Block}
    {remapping : JoinRemapping} (h : block.addJoin config inner = ⟨.ok remapping, after⟩) :
    (∃ source, after.sources = block.sources ++ [source] ∧
        source.aliasName = remapping.aliasName) ∧
      Alias.isTaken (block.sources.map (·.aliasName)) remapping.aliasName = false ∧
      after = { block with sources := after.sources, projection := after.projection } := by
  obtain ⟨-, outer, mapping, source, -, -, -, hsource, rfl, rfl⟩ := addJoin_eq_ok h
  exact ⟨⟨source, rfl, aliasName_joinSource hsource⟩, Alias.isTaken_fresh _ _, rfl⟩

theorem Block.faithful_of_addJoin {config : Config} {block inner after : Block}
    {remapping : JoinRemapping} (h : block.addJoin config inner = ⟨.ok remapping, after⟩)
    (houter : block.bound.keys.Nodup) (hinner : inner.bound.keys.Nodup) :
    Join.Faithful ⟨block, inner, remapping, after⟩ := by
  obtain ⟨hremapOuter, hremapInner, hentries⟩ := addJoin_bound h houter hinner
  have hkeys : after.bound.keys = block.bound.keys.map (Member.prepend · outerStep) ++
      inner.bound.keys.map (Member.prepend · innerStep) := by
    rw [OrderedMap.keys, hentries, keys_joinedEntries]
  have hmoved : ∀ member place, remapping.remapOuter member = some place ↔
      member ∈ block.bound.keys ∧ place = member.prepend outerStep := by
    intro member place
    rw [JoinRemapping.remapOuter, hremapOuter, lookupEntry_movedUnder_iff]
  have hreferred : ∀ member place, remapping.remapInner member = some place ↔
      member ∈ inner.bound.keys ∧ place = member.prepend innerStep := by
    intro member place
    rw [JoinRemapping.remapInner, hremapInner, lookupEntry_movedUnder_iff]
  obtain ⟨hsources, hfresh, hrest⟩ := addJoin_sources h
  refine ⟨?_, ?_, ?_, ?_, ?_, hsources, hfresh, hrest⟩
  · intro member
    constructor
    · intro hmember
      refine ⟨member.prepend outerStep, ?_, (hmoved _ _).mpr ⟨hmember, rfl⟩⟩
      rw [hkeys]
      exact List.mem_append_left _ (List.mem_map_of_mem hmember)
    · rintro ⟨place, -, hplace⟩
      exact ((hmoved _ _).mp hplace).1
  · intro a b place ha hb
    have hsame : a.prepend outerStep = b.prepend outerStep :=
      ((hmoved _ _).mp ha).2.symm.trans ((hmoved _ _).mp hb).2
    exact Member.prepend_injective hsame
  · intro member
    constructor
    · intro hmember
      refine ⟨member.prepend innerStep, ?_, (hreferred _ _).mpr ⟨hmember, rfl⟩⟩
      rw [hkeys]
      exact List.mem_append_right _ (List.mem_map_of_mem hmember)
    · rintro ⟨place, -, hplace⟩
      exact ((hreferred _ _).mp hplace).1
  · intro a b place ha hb
    have hsame : a.prepend outerStep = b.prepend innerStep :=
      ((hmoved _ _).mp ha).2.symm.trans ((hreferred _ _).mp hb).2
    exact prepend_outerStep_ne a b hsame
  · intro place hplace
    rw [hkeys, List.mem_append] at hplace
    rcases hplace with hplace | hplace
    · obtain ⟨member, hmember, rfl⟩ := List.mem_map.mp hplace
      exact Or.inl ⟨member, (hmoved _ _).mpr ⟨hmember, rfl⟩⟩
    · obtain ⟨member, hmember, rfl⟩ := List.mem_map.mp hplace
      exact Or.inr ⟨member, (hreferred _ _).mpr ⟨hmember, rfl⟩⟩

section AddJoin

variable {config : Config} {block inner after : Block} {remapping : JoinRemapping}
  {member : Member} {projected : Projected}

theorem Block.nodup_bound_of_addJoin
    (h : block.addJoin config inner = ⟨.ok remapping, after⟩)
    (houter : block.bound.keys.Nodup) (hinner : inner.bound.keys.Nodup) :
    after.bound.keys.Nodup := by
  obtain ⟨-, -, hentries⟩ := addJoin_bound h houter hinner
  rw [OrderedMap.keys, hentries]
  exact nodup_joinedEntries _ houter hinner

theorem Block.get?_of_addJoin (h : block.addJoin config inner = ⟨.ok remapping, after⟩)
    (houter : block.bound.keys.Nodup) (hinner : inner.bound.keys.Nodup)
    (hbound : block.bound.get? member = some projected) :
    ∃ place, remapping.remapOuter member = some place ∧
      after.bound.get? place = some projected := by
  obtain ⟨hremap, -, hentries⟩ := addJoin_bound h houter hinner
  have hafter := nodup_bound_of_addJoin h houter hinner
  have hmem := (OrderedMap.get?_eq_some_iff houter member projected).mp hbound
  refine ⟨member.prepend outerStep, ?_, ?_⟩
  · rw [JoinRemapping.remapOuter, hremap, lookupEntry_movedUnder_iff]
    exact ⟨List.mem_map_of_mem hmem, rfl⟩
  · rw [OrderedMap.get?_eq_some_iff hafter, hentries]
    exact List.mem_append_left _ (List.mem_map.mpr ⟨(member, projected), hmem, rfl⟩)

theorem Block.get?_inner_of_addJoin (h : block.addJoin config inner = ⟨.ok remapping, after⟩)
    (houter : block.bound.keys.Nodup) (hinner : inner.bound.keys.Nodup)
    (hbound : inner.bound.get? member = some projected) :
    ∃ place, remapping.remapInner member = some place ∧
      after.bound.get? place = some (projected.referTo remapping.aliasName) := by
  obtain ⟨-, hremap, hentries⟩ := addJoin_bound h houter hinner
  have hafter := nodup_bound_of_addJoin h houter hinner
  have hmem := (OrderedMap.get?_eq_some_iff hinner member projected).mp hbound
  refine ⟨member.prepend innerStep, ?_, ?_⟩
  · rw [JoinRemapping.remapInner, hremap, lookupEntry_movedUnder_iff]
    exact ⟨List.mem_map_of_mem hmem, rfl⟩
  · rw [OrderedMap.get?_eq_some_iff hafter, hentries]
    exact List.mem_append_right _ (List.mem_map.mpr ⟨(member, projected), hmem, rfl⟩)

end AddJoin

/-! ## Runs -/

namespace Joins

variable {block after : Block} {joins : List Join}

theorem bound_perform {call : Call} (hcall : call.keepsShape = true) (block : Block) :
    (block.perform call).block.bound = block.bound := by
  rw [Block.bound, (Block.sameShape_perform hcall block).projection, Block.bound]

theorem faithful (h : Joins block joins after) (hnodup : block.bound.keys.Nodup) :
    ∀ join ∈ joins, join.Faithful := by
  induction h with
  | done block => simp
  | call call hcall _ ih =>
      rw [← bound_perform hcall] at hnodup
      exact ih hnodup
  | join config hinner hjoin _ ih =>
      rw [List.forall_mem_cons]
      exact ⟨Block.faithful_of_addJoin hjoin hnodup hinner,
        ih (Block.nodup_bound_of_addJoin hjoin hnodup hinner)⟩

/-- Every position is carried to one that is bound to the same. -/
theorem get?_carried (h : Joins block joins after) (hnodup : block.bound.keys.Nodup)
    {member : Member} {projected : Projected}
    (hbound : block.bound.get? member = some projected) :
    ∃ place, carried (joins.map Join.remapping) member = some place ∧
      after.bound.get? place = some projected := by
  induction h generalizing member with
  | done block => exact ⟨member, rfl, hbound⟩
  | call call hcall _ ih =>
      rw [← bound_perform hcall] at hnodup hbound
      exact ih hnodup hbound
  | join config hinner hjoin _ ih =>
      obtain ⟨moved, hmoved, hsame⟩ := Block.get?_of_addJoin hjoin hnodup hinner hbound
      obtain ⟨place, hplace, hlast⟩ :=
        ih (Block.nodup_bound_of_addJoin hjoin hnodup hinner) hsame
      refine ⟨place, ?_, hlast⟩
      simp [carried, hmoved, hplace]

/-- The position that a join gave to the root of its inner block is carried to
one that is bound to a reference to the source of that join. -/
theorem get?_carried_inner (h : Joins block joins after) (hnodup : block.bound.keys.Nodup)
    {earlier later : List Join} {join : Join} (hjoins : joins = earlier ++ join :: later)
    {projected : Projected} (hbound : join.inner.bound.get? .root = some projected) :
    ∃ first place, join.remapping.remapInner .root = some first ∧
      carried (later.map Join.remapping) first = some place ∧
      after.bound.get? place = some (projected.referTo join.remapping.aliasName) := by
  induction h generalizing earlier with
  | done block => simp at hjoins
  | call call hcall _ ih =>
      rw [← bound_perform hcall] at hnodup
      exact ih hnodup hjoins
  | join config hinner hjoin hrest ih =>
      have hmiddle := Block.nodup_bound_of_addJoin hjoin hnodup hinner
      cases earlier with
      | nil =>
          obtain ⟨rfl, rfl⟩ := List.cons.inj hjoins
          obtain ⟨first, hfirst, hrefers⟩ :=
            Block.get?_inner_of_addJoin hjoin hnodup hinner hbound
          obtain ⟨place, hplace, hlast⟩ := hrest.get?_carried hmiddle hrefers
          exact ⟨first, place, hfirst, hplace, hlast⟩
      | cons other earlier =>
          obtain ⟨-, hlater⟩ := List.cons.inj hjoins
          exact ih hmiddle hlater

/-- The aliases that joins add collide neither with those that were there nor
with each other. -/
theorem distinct_aliases (h : Joins block joins after) :
    Alias.Distinct (joins.map (·.remapping.aliasName)) ∧
      ∀ join ∈ joins,
        Alias.isTaken (block.sources.map (·.aliasName)) join.remapping.aliasName = false := by
  induction h with
  | done block => simp [Alias.distinct_nil]
  | call call hcall _ ih =>
      rw [(Block.sameShape_perform hcall _).sources] at ih
      exact ih
  | join config hinner hjoin _ ih =>
      obtain ⟨⟨source, hsources, halias⟩, hfresh, -⟩ := Block.addJoin_sources hjoin
      obtain ⟨hdistinct, hfree⟩ := ih
      simp only [hsources, halias, List.map_append, List.map_cons, List.map_nil,
        Alias.isTaken_eq_false_iff, List.mem_append, List.mem_singleton, not_or] at hfree
      simp only [Alias.Distinct, List.map_cons, List.nodup_cons, List.forall_mem_cons]
      refine ⟨⟨?_, hdistinct⟩, hfresh, fun join hjoin => ?_⟩
      · intro hmem
        obtain ⟨join, hjoin, hsame⟩ := List.mem_map.mp (List.map_map ▸ hmem)
        exact (hfree join hjoin).2 hsame
      · rw [Alias.isTaken_eq_false_iff]
        exact (hfree join hjoin).1

/-- However many blocks are joined to one that binds no position twice, and
whatever is filtered, sorted and paged in between, no position is lost or
mistaken for another one: each join is faithful, what was bound at first is
bound to the same in the end, and no two joins share an alias. The root of an
inner block ends up bound to a reference to the source of its join, of the type
of the value or to the entity type of the document that it was bound to. -/
theorem keep_positions (h : Joins block joins after) (hnodup : block.bound.keys.Nodup) :
    (∀ join ∈ joins, join.Faithful) ∧
      (∀ member projected, block.bound.get? member = some projected →
        ∃ place, carried (joins.map Join.remapping) member = some place ∧
          after.bound.get? place = some projected) ∧
      (∀ earlier join later, joins = earlier ++ join :: later →
        (∀ value, join.inner.bound.get? .root = some (.scalar value) →
          ∃ first place, join.remapping.remapInner .root = some first ∧
            carried (later.map Join.remapping) first = some place ∧
            after.bound.get? place =
              some (.scalar (.scalarReference join.remapping.aliasName value.valueType))) ∧
        (∀ entityType access,
          join.inner.bound.get? .root = some (.object entityType access) →
            ∃ first place, join.remapping.remapInner .root = some first ∧
              carried (later.map Join.remapping) first = some place ∧
              after.bound.get? place = some (.object entityType
                (.objectReference entityType join.remapping.aliasName)))) ∧
      Alias.Distinct (joins.map (·.remapping.aliasName)) := by
  refine ⟨h.faithful hnodup, fun _ _ hbound => h.get?_carried hnodup hbound, ?_,
    h.distinct_aliases.1⟩
  intro earlier join later hjoins
  exact ⟨fun _ hbound => h.get?_carried_inner hnodup hjoins hbound,
    fun _ _ hbound => h.get?_carried_inner hnodup hjoins hbound⟩

/-- Posts and the titles of posts are joined to blogs, which are limited in
between. The root of the one inner block is an object and that of the other a
string, and the references to them stay apart. -/
theorem keep_positions_twice :
    let blogs := Block.forEntity .default "Blog"
    let posts := Block.forEntity .default "Post"
    let title : Expr := .property (.objectReference "Post" "c") "Title" .string
    let titles := { posts with projection := .pending (.ofList [(.root, .scalar title)]) }
    ∃ first second after, Joins blogs [first, second] after ∧
      first.inner = posts ∧ second.inner = titles ∧ blogs.bound.keys.Nodup ∧
      (∃ place, carried [first.remapping, second.remapping] .root = some place ∧
        after.bound.get? place = some (.object "Blog" (.objectReference "Blog" "c"))) ∧
      (∃ moved place, first.remapping.remapInner .root = some moved ∧
        carried [second.remapping] moved = some place ∧
        after.bound.get? place = some (.object "Post" (.objectReference "Post" "a"))) ∧
      ∃ place, second.remapping.remapInner .root = some place ∧
        after.bound.get? place = some (.scalar (.scalarReference "a0" .string)) := by
  intro blogs posts title titles
  have hblogs : blogs.bound.keys.Nodup := List.nodup_singleton Member.root
  have hposts : posts.bound.keys.Nodup := List.nodup_singleton Member.root
  have htitles : titles.bound.keys.Nodup := List.nodup_singleton Member.root
  obtain ⟨first, second, after, hrun, hfirst, hsecond, ha, ha0⟩ :
      ∃ first second after, Joins blogs [first, second] after ∧
        first.inner = posts ∧ second.inner = titles ∧
        first.remapping.aliasName = "a" ∧ second.remapping.aliasName = "a0" :=
    ⟨_, _, _, .join .default hposts rfl (.call (.applyLimit (.constant .null .null)) rfl
      (.join .default htitles rfl (.done _))), rfl, rfl, by decide +kernel, by decide +kernel⟩
  obtain ⟨-, hkept, hroots, -⟩ := keep_positions hrun hblogs
  have hpost := (hroots [] first [second] rfl).2 "Post" (.objectReference "Post" "c")
    (hfirst ▸ rfl)
  have htitle := (hroots [first] second [] rfl).1 title (hsecond ▸ rfl)
  rw [ha] at hpost
  rw [ha0] at htitle
  -- no join follows, so the title stays where it was moved to
  obtain ⟨moved, place, hmoved, hstays, hbound⟩ := htitle
  obtain rfl : moved = place := Option.some.inj hstays
  exact ⟨first, second, after, hrun, hfirst, hsecond, hblogs, hkept .root _ rfl, hpost,
    moved, hmoved, hbound⟩

end Joins

end DocumentQuery
