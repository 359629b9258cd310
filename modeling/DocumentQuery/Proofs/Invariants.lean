import DocumentQuery.Proofs.Validity
/-!
# The declared invariants

`Block.Invariants` writes the invariants of stored blocks out one by one, without
a search and without the functions that validation uses: what each source may
take its rows from, which aliases and positions must differ from each other, how
columns and bindings fit together, and what a point read excludes. It says the
same as soundness (`Block.sound_iff_invariants`), so that validation accepts a
block exactly if the invariants hold of it and of every block that rows are drawn
from, at any depth (`Block.validate_eq_ok_iff_invariants`).
-/

namespace DocumentQuery

/-- A chain of property and item steps down to a reference. -/
inductive Expr.Path : Expr → Prop where
  | scalarReference (aliasName : String) (type : ValueType) : Path (.scalarReference aliasName type)
  | objectReference (entityType aliasName : String) : Path (.objectReference entityType aliasName)
  | property {base : Expr} (name : String) (type : ValueType) (path : Path base) :
      Path (.property base name type)
  | item {array : Expr} (index : Expr) (type : ValueType) (path : Path array) :
      Path (.item array index type)

theorem Expr.path_of_isPath {expression : Expr} (h : expression.isPath = true) :
    expression.Path := by
  fun_induction Expr.isPath expression with
  | case1 entityType aliasName => exact .objectReference entityType aliasName
  | case2 aliasName type => exact .scalarReference aliasName type
  | case3 base name type ih => exact .property name type (ih h)
  | case4 array index type ih => exact .item index type (ih h)
  | case5 => simp at h

theorem Expr.isPath_iff (expression : Expr) : expression.isPath = true ↔ expression.Path := by
  refine ⟨path_of_isPath, fun h => ?_⟩
  induction h with
  | scalarReference aliasName type => rfl
  | objectReference entityType aliasName => rfl
  | property name type _ ih => exact ih
  | item index type _ ih => exact ih

namespace Block

/-- The invariants of a block, the blocks that stand in it left aside. -/
structure Invariants (block : Block) : Prop where
  /-- An array stands behind `IN`, and is a path. -/
  arrays : ∀ source ∈ block.sources, ∀ array, source.payload = .collection array →
    source.iterated = true ∧ array.Path
  /-- A nested query behind `IN` selects a single value. -/
  queries : ∀ source ∈ block.sources, ∀ inner, source.payload = .select inner →
    source.iterated = true → inner.singleValue = true
  /-- The container of all documents does not stand behind `IN`. -/
  containers : ∀ source ∈ block.sources, ∀ entityType container,
    source.payload = .root entityType container → source.iterated = false
  /-- Query text that is taken over does not stand behind `IN`. -/
  texts : ∀ source ∈ block.sources, ∀ entityType text,
    source.payload = .raw entityType text → source.iterated = false
  sourceAliases : block.sources.Pairwise fun a b =>
    Text.lowercase a.aliasName ≠ Text.lowercase b.aliasName
  pendingMembers : ∀ mapping, block.projection = .pending mapping →
    mapping.entries.Pairwise fun a b => a.1 ≠ b.1
  boundMembers : ∀ columns bindings, block.projection = .frozen columns bindings →
    bindings.entries.Pairwise fun a b => a.1 ≠ b.1
  /-- A settled single value has exactly one column. -/
  singleColumn : ∀ columns bindings, block.projection = .frozen columns bindings →
    block.singleValue = true → columns.length = 1
  /-- Positions are bound to columns that are there. -/
  boundColumns : ∀ columns bindings, block.projection = .frozen columns bindings →
    ∀ entry ∈ bindings.entries, entry.2 < columns.length
  columnAliases : ∀ columns bindings, block.projection = .frozen columns bindings →
    columns.Pairwise fun a b => Text.lowercase a.aliasName ≠ Text.lowercase b.aliasName
  /-- A point read has no joined sources. -/
  pointRead : block.pointRead.isSome = true → block.sources.length ≤ 1

theorem distinct_aliases_iff {α : Type} (aliasOf : α → String) (items : List α) :
    Alias.Distinct (items.map aliasOf) ↔
      items.Pairwise fun a b => Text.lowercase (aliasOf a) ≠ Text.lowercase (aliasOf b) := by
  rw [Alias.Distinct, List.nodup_iff_pairwise_ne, List.pairwise_map, List.pairwise_map]

theorem nodup_keys_iff {α : Type} (mapping : Mapping α) :
    mapping.keys.Nodup ↔ mapping.entries.Pairwise fun a b => a.1 ≠ b.1 := by
  rw [OrderedMap.keys, List.nodup_iff_pairwise_ne, List.pairwise_map]

/-- All sources are legal exactly if the four conditions on payloads hold. -/
theorem legal_iff (sources : List Source) :
    (∀ source ∈ sources, source.Legal) ↔
      (∀ source ∈ sources, ∀ array, source.payload = .collection array →
        source.iterated = true ∧ array.Path) ∧
      (∀ source ∈ sources, ∀ inner, source.payload = .select inner →
        source.iterated = true → inner.singleValue = true) ∧
      (∀ source ∈ sources, ∀ entityType container,
        source.payload = .root entityType container → source.iterated = false) ∧
      ∀ source ∈ sources, ∀ entityType text,
        source.payload = .raw entityType text → source.iterated = false := by
  constructor
  · intro h
    refine ⟨?_, ?_, ?_, ?_⟩
    · intro source hsource array hpayload
      have hlegal := h source hsource
      rw [Source.Legal, hpayload] at hlegal
      exact ⟨hlegal.1, (Expr.isPath_iff array).mp hlegal.2⟩
    · intro source hsource inner hpayload
      have hlegal := h source hsource
      rwa [Source.Legal, hpayload] at hlegal
    · intro source hsource entityType container hpayload
      have hlegal := h source hsource
      rwa [Source.Legal, hpayload] at hlegal
    · intro source hsource entityType text hpayload
      have hlegal := h source hsource
      rwa [Source.Legal, hpayload] at hlegal
  · rintro ⟨harrays, hqueries, hcontainers, htexts⟩ source hsource
    rw [Source.Legal]
    split
    · rename_i hpayload
      exact hcontainers source hsource _ _ hpayload
    · rename_i hpayload
      exact hqueries source hsource _ hpayload
    · rename_i array hpayload
      have harray := harrays source hsource array hpayload
      exact ⟨harray.1, (Expr.isPath_iff array).mpr harray.2⟩
    · rename_i hpayload
      exact htexts source hsource _ _ hpayload

theorem sound_iff_invariants (block : Block) : block.Sound ↔ block.Invariants := by
  constructor
  · intro h
    obtain ⟨harrays, hqueries, hcontainers, htexts⟩ := (legal_iff _).mp h.sources
    have hfrozen : ∀ columns bindings, block.projection = .frozen columns bindings →
        Fits columns bindings ∧ (block.singleValue = true → columns.length = 1) := by
      intro columns bindings hprojection
      have hsound := h.projection
      rwa [hprojection] at hsound
    exact {
      arrays := harrays
      queries := hqueries
      containers := hcontainers
      texts := htexts
      sourceAliases := (distinct_aliases_iff _ _).mp h.aliases
      pendingMembers := by
        intro mapping hprojection
        have hsound := h.projection
        rw [hprojection] at hsound
        exact (nodup_keys_iff mapping).mp hsound
      boundMembers := fun columns bindings hprojection =>
        (nodup_keys_iff bindings).mp (hfrozen columns bindings hprojection).1.members
      singleColumn := fun columns bindings hprojection =>
        (hfrozen columns bindings hprojection).2
      boundColumns := fun columns bindings hprojection =>
        (hfrozen columns bindings hprojection).1.bound
      columnAliases := fun columns bindings hprojection =>
        (distinct_aliases_iff _ _).mp (hfrozen columns bindings hprojection).1.aliases
      pointRead := h.pointRead }
  · intro h
    have hprojection : block.projection.Sound block.singleValue := by
      cases hcase : block.projection with
      | pending mapping => exact (nodup_keys_iff mapping).mpr (h.pendingMembers mapping hcase)
      | frozen columns bindings =>
          refine ⟨⟨?_, ?_, ?_⟩, h.singleColumn columns bindings hcase⟩
          · exact (distinct_aliases_iff _ _).mpr (h.columnAliases columns bindings hcase)
          · exact (nodup_keys_iff bindings).mpr (h.boundMembers columns bindings hcase)
          · exact h.boundColumns columns bindings hcase
    exact {
      sources := (legal_iff _).mpr ⟨h.arrays, h.queries, h.containers, h.texts⟩
      aliases := (distinct_aliases_iff _ _).mpr h.sourceAliases
      projection := hprojection
      pointRead := h.pointRead }

/-- Validation accepts a block exactly if the invariants hold of the block and,
at any depth, of the blocks that its sources take rows from. -/
theorem validate_eq_ok_iff_invariants (block : Block) :
    block.validate = .ok () ↔
      ∀ inner, Relation.ReflTransGen Draws block inner → inner.Invariants := by
  rw [validate_eq_ok_iff_sound_of_drawn]
  simp only [sound_iff_invariants]

end Block

end DocumentQuery
