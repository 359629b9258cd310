import DocumentQuery.Revision
import DocumentQuery.Proofs.OrderedMap
/-!
# Rebuilding what changed

The functions that rebuild a node are handed an answer for each part: the new
part, or nothing if it stays. Here the answers come from a test of the parts and
a new part for each of them (`changed`), with nothing new where the test fails.
Then the node that is rebuilt has all the new parts, and there is one exactly if
the test holds of one of them.

For answers of any origin, the node that is left is built from what is left of
its parts (`getD_rebuildPair`, `getD_rebuildList`, `Block.getD_rebuild`).
-/

namespace DocumentQuery

variable {α β γ : Type}

/-- The new node if a change was made. -/
def changed (hit : Bool) (new : α) : Option α :=
  if hit = true then some new else none

@[simp] theorem isNone_changed (hit : Bool) (new : α) : (changed hit new).isNone = !hit := by
  cases hit <;> rfl

@[simp] theorem map_changed (hit : Bool) (new : α) (node : α → β) :
    (changed hit new).map node = changed hit (node new) := by
  cases hit <;> rfl

theorem getD_changed {hit : Bool} {old new : α} (h : hit = false → new = old) :
    (changed hit new).getD old = new := by
  cases hit with
  | false => exact (h rfl).symm
  | true => rfl

theorem changed_orElse {hit : Bool} {old new : α} (h : hit = false → new = old) :
    (changed hit new <|> some old) = some new := by
  cases hit with
  | false => exact congrArg some (h rfl).symm
  | true => rfl

theorem rebuildPair_changed {p q : Bool} {a newA : α} {b newB : β} (node : α → β → γ)
    (ha : p = false → newA = a) (hb : q = false → newB = b) :
    rebuildPair node a b (changed p newA) (changed q newB) = changed (p || q) (node newA newB) := by
  cases p with
  | false =>
      obtain rfl := ha rfl
      cases q <;> rfl
  | true =>
      cases q with
      | false =>
          obtain rfl := hb rfl
          rfl
      | true => rfl

/-- In a list every item keeps its place. -/
theorem zipWith_changed {items : List α} {hit : α → Bool} {new : α → α}
    (h : ∀ a ∈ items, hit a = false → new a = a) :
    List.zipWith (fun item new => new.getD item) items
      (items.map fun a => changed (hit a) (new a)) = items.map new := by
  rw [List.zipWith_map_right, List.zipWith_self]
  exact List.map_congr_left fun a ha => getD_changed (h a ha)

theorem all_isNone_changed (items : List α) (hit : α → Bool) (new : α → β) :
    (items.map fun a => changed (hit a) (new a)).all Option.isNone = !items.any hit := by
  induction items with
  | nil => rfl
  | cons a rest ih => simp_all

/-- If no item changes, the list stays. -/
theorem map_of_unchanged {items : List α} {hit : α → Bool} {new : α → α}
    (h : ∀ a ∈ items, hit a = false → new a = a) (hnone : items.any hit = false) :
    items.map new = items := by
  have hall : ∀ a ∈ items, new a = id a := by
    intro a ha
    rw [List.any_eq_false] at hnone
    exact h a ha (Bool.eq_false_iff.mpr (hnone a ha))
  rw [List.map_congr_left hall, List.map_id]

theorem rebuildList_changed {items : List α} {hit : α → Bool} {new : α → α}
    (h : ∀ a ∈ items, hit a = false → new a = a) :
    rebuildList items (items.map fun a => changed (hit a) (new a)) =
      changed (items.any hit) (items.map new) := by
  rw [rebuildList, all_isNone_changed, zipWith_changed h]
  cases items.any hit <;> rfl

theorem rebuildSortKeys_changed {keys : List SortKey} {hit : SortKey → Bool}
    {new : SortKey → Expr} (h : ∀ key ∈ keys, hit key = false → new key = key.expression) :
    rebuildSortKeys keys (keys.map fun key => changed (hit key) (new key)) =
      changed (keys.any hit) (keys.map fun key => ⟨new key, key.ascending⟩) := by
  rw [rebuildSortKeys, List.zipWith_map_right, List.zipWith_self]
  simp only [map_changed]
  refine rebuildList_changed fun key hkey hhit => ?_
  rw [h key hkey hhit]
  cases key
  rfl

theorem rebuildColumns_changed {columns : List Column} {hit : Column → Bool}
    {new : Column → Projected}
    (h : ∀ column ∈ columns, hit column = false → new column = column.expression) :
    rebuildColumns columns (columns.map fun column => changed (hit column) (new column)) =
      changed (columns.any hit) (columns.map fun column => ⟨new column, column.aliasName⟩) := by
  rw [rebuildColumns, List.zipWith_map_right, List.zipWith_self]
  simp only [map_changed]
  refine rebuildList_changed fun column hcolumn hhit => ?_
  rw [h column hcolumn hhit]
  cases column
  rfl

/-- Positions that are not bound twice stay bound as they were. -/
theorem rebuildMapping_changed {mapping : Mapping Projected} (hnodup : mapping.keys.Nodup)
    {hit : Member × Projected → Bool} {new : Member × Projected → Projected}
    (h : ∀ entry ∈ mapping.entries, hit entry = false → new entry = entry.2) :
    rebuildMapping mapping (mapping.entries.map fun entry => changed (hit entry) (new entry)) =
      changed (mapping.entries.any hit)
        (.pending ⟨mapping.entries.map fun entry => (entry.1, new entry)⟩) := by
  have hentries : List.zipWith (fun entry (new : Option Projected) => (entry.1, new.getD entry.2))
      mapping.entries (mapping.entries.map fun entry => changed (hit entry) (new entry)) =
        mapping.entries.map fun entry => (entry.1, new entry) := by
    rw [List.zipWith_map_right, List.zipWith_self]
    refine List.map_congr_left fun entry hentry => ?_
    rw [getD_changed (h entry hentry)]
  have hkeys : (OrderedMap.mk (mapping.entries.map fun entry =>
      (entry.1, new entry))).keys.Nodup := by
    simpa [OrderedMap.keys, Function.comp_def] using hnodup
  rw [rebuildMapping, all_isNone_changed]
  dsimp only
  rw [hentries, OrderedMap.ofList_entries hkeys]
  cases mapping.entries.any hit <;> rfl

/-! ## Nodes that are rebuilt or left -/

theorem getD_rebuildPair (node : α → β → γ) (a : α) (b : β) (newA : Option α) (newB : Option β) :
    (rebuildPair node a b newA newB).getD (node a b) = node (newA.getD a) (newB.getD b) := by
  cases newA <;> cases newB <;> rfl

/-- Items without an answer stay as they are. -/
theorem map_of_all_isNone {items : List α} {answer : α → Option β} {new : α → α}
    (hnone : (items.map answer).all Option.isNone = true)
    (hnew : ∀ item, answer item = none → new item = item) : items.map new = items := by
  have hany : items.any (fun item => (answer item).isSome) = false := by simpa using hnone
  exact map_of_unchanged (fun item _ hitem => hnew item (by simpa using hitem)) hany

theorem getD_rebuildList (items : List α) (answer : α → Option α) :
    (rebuildList items (items.map answer)).getD items =
      items.map fun item => (answer item).getD item := by
  rw [rebuildList]
  split
  · rename_i hnone
    rw [Option.getD_none, map_of_all_isNone hnone fun item h => by rw [h, Option.getD_none]]
  · rw [Option.getD_some, List.zipWith_map_right, List.zipWith_self]

theorem rebuildList_map (items : List α) (new? : α → Option α) :
    rebuildList items (items.map new?) =
      if ∀ item ∈ items, new? item = none then none
      else some (items.map fun item => (new? item).getD item) := by
  rw [rebuildList, List.zipWith_map_right, List.zipWith_self]
  simp only [List.all_map, List.all_eq_true, Function.comp_apply, Option.isNone_iff_eq_none]

theorem getD_rebuildColumns (columns : List Column) (answer : Column → Option Projected) :
    (rebuildColumns columns (columns.map answer)).getD columns =
      columns.map fun column => ⟨(answer column).getD column.expression, column.aliasName⟩ := by
  rw [rebuildColumns, List.zipWith_map_right, List.zipWith_self, getD_rebuildList]
  refine List.map_congr_left fun column _ => ?_
  cases column
  cases answer _ <;> rfl

theorem getD_rebuildSortKeys (keys : List SortKey) (answer : SortKey → Option Expr) :
    (rebuildSortKeys keys (keys.map answer)).getD keys =
      keys.map fun key => ⟨(answer key).getD key.expression, key.ascending⟩ := by
  rw [rebuildSortKeys, List.zipWith_map_right, List.zipWith_self, getD_rebuildList]
  refine List.map_congr_left fun key _ => ?_
  cases key
  cases answer _ <;> rfl

/-- Positions that are not bound twice stay apart. -/
theorem getD_rebuildMapping {mapping : Mapping Projected} (hnodup : mapping.keys.Nodup)
    (answer : Member × Projected → Option Projected) :
    (rebuildMapping mapping (mapping.entries.map answer)).getD (.pending mapping) =
      .pending ⟨mapping.entries.map fun entry => (entry.1, (answer entry).getD entry.2)⟩ := by
  have hkeys : (OrderedMap.mk (mapping.entries.map fun entry =>
      (entry.1, (answer entry).getD entry.2))).keys.Nodup := by
    simpa [OrderedMap.keys, Function.comp_def] using hnodup
  rw [rebuildMapping, List.zipWith_map_right, List.zipWith_self]
  dsimp only
  rw [OrderedMap.ofList_entries hkeys]
  split
  · rename_i hnone
    rw [Option.getD_none, map_of_all_isNone hnone fun entry h => by rw [h, Option.getD_none]]
  · rfl

theorem rebuildMapping_map (mapping : Mapping Projected) (new? : Projected → Option Projected) :
    rebuildMapping mapping (mapping.entries.map fun entry => new? entry.2) =
      if ∀ entry ∈ mapping.entries, new? entry.2 = none then none
      else some (.pending (.ofList
        (mapping.entries.map fun entry => (entry.1, (new? entry.2).getD entry.2)))) := by
  rw [rebuildMapping, List.zipWith_map_right, List.zipWith_self]
  simp only [List.all_map, List.all_eq_true, Function.comp_apply, Option.isNone_iff_eq_none]

theorem Block.update_self (block : Block) :
    block.update block.projection block.sources block.predicate block.orderings block.limit
      block.offset = block := by
  cases block
  rfl

theorem Block.getD_rebuild (block : Block) (changes : Changes) :
    (block.rebuild changes).getD block =
      block.update (changes.projection.getD block.projection)
        (changes.sources.getD block.sources) (changes.predicate <|> block.predicate)
        (changes.orderings.getD block.orderings) (changes.limit <|> block.limit)
        (changes.offset <|> block.offset) := by
  rw [rebuild]
  split
  · rename_i hempty
    simp only [Changes.isEmpty, Bool.and_eq_true, Option.isNone_iff_eq_none] at hempty
    obtain ⟨⟨⟨⟨⟨hprojection, hsources⟩, hpredicate⟩, horderings⟩, hoffset⟩, hlimit⟩ := hempty
    rw [hprojection, hsources, hpredicate, horderings, hoffset, hlimit]
    exact (update_self block).symm
  · rfl

/-! ## Walks through lists -/

/-- A walk that asks the items of a list one after the other gathers their
answers. -/
theorem walkAll_pure {σ : Type} {walkAll : List α → Revising σ (List (Option β))}
    {walk : α → Revising σ (Option β)} {answer : α → Option β} {items : List α}
    (hnil : walkAll [] = pure [])
    (hcons : ∀ item rest, walkAll (item :: rest) =
      walk item >>= fun first => walkAll rest >>= fun more => pure (first :: more))
    (h : ∀ item ∈ items, walk item = pure (answer item)) :
    walkAll items = pure (items.map answer) := by
  induction items with
  | nil => exact hnil
  | cons item rest ih =>
      rw [List.forall_mem_cons] at h
      rw [hcons, h.1, ih h.2]
      simp only [pure_bind, List.map_cons]

end DocumentQuery
