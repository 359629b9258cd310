import DocumentQuery.Json.Equality
import DocumentQuery.Json.Tree
import DocumentQuery.Proofs.OrderedMap
/-!
# Values and their trees

Taking the value of the syntax tree of a value gives the same value
(`Json.toJson?_ofJson`), provided that as many arrays and objects may be entered
as are nested in it (`Json.depth_le_of_toJson?`). The fields of one name are
merged on the way, which changes nothing but the order of the fields and
therefore not the canonical form (`Json.canonicalFields_mergeFields`).
-/

namespace DocumentQuery

namespace Json

/-! ## Nesting -/

/-- How deep arrays and objects are nested in a value. -/
def depth (json : Json) : Nat :=
  (Tree.ofJson json).depth

theorem depthOfItems_le_iff {items : List Json} {limit : Nat} :
    Tree.depthOfItems (Tree.ofItems items) ≤ limit ↔ ∀ item ∈ items, item.depth ≤ limit := by
  induction items with
  | nil => simp [Tree.ofItems, Tree.depthOfItems]
  | cons item rest ih =>
      rw [Tree.ofItems, Tree.depthOfItems, Nat.max_le, ih, List.forall_mem_cons, depth]

theorem depthOfFields_le_iff {fields : List (String × Json)} {limit : Nat} :
    Tree.depthOfFields (Tree.ofFields fields) ≤ limit ↔
      ∀ field ∈ fields, field.2.depth ≤ limit := by
  induction fields with
  | nil => simp [Tree.ofFields, Tree.depthOfFields]
  | cons field rest ih =>
      rw [Tree.ofFields, Tree.depthOfFields, Nat.max_le, ih, List.forall_mem_cons, depth]

theorem depth_array_le_succ_iff {items : List Json} {limit : Nat} :
    (array items).depth ≤ limit + 1 ↔ ∀ item ∈ items, item.depth ≤ limit := by
  rw [← depthOfItems_le_iff]
  exact Nat.succ_le_succ_iff

theorem depth_object_le_succ_iff {fields : List (String × Json)} {limit : Nat} :
    (object fields).depth ≤ limit + 1 ↔ ∀ field ∈ fields, field.2.depth ≤ limit := by
  rw [← depthOfFields_le_iff]
  exact Nat.succ_le_succ_iff

theorem depth_array_pos (items : List Json) : 0 < (array items).depth :=
  Nat.succ_pos _

theorem depth_object_pos (fields : List (String × Json)) : 0 < (object fields).depth :=
  Nat.succ_pos _

/-! ## Fields of one name -/

theorem insertField_comm {name other : String} (hne : name ≠ other) (value value' : Json)
    (fields : List (String × Json)) :
    insertField name value (insertField other value' fields) =
      insertField other value' (insertField name value fields) := by
  have hasymm : name < other → ¬ other < name := fun h h' => String.lt_asymm h h'
  have htotal : ¬ name < other → other < name := fun h => Decidable.byContradiction fun h' =>
    hne (String.le_antisymm (String.not_lt.mp h') (String.not_lt.mp h))
  induction fields with
  | nil => grind [insertField]
  | cons field rest ih =>
      have htrans := @String.lt_trans name other field.1
      have htrans' := @String.lt_trans other name field.1
      grind [insertField]

theorem insertField_insertField (name : String) (value value' : Json)
    (fields : List (String × Json)) :
    insertField name value (insertField name value' fields) = insertField name value' fields := by
  induction fields with
  | nil => simp [insertField]
  | cons field rest ih => grind [insertField]

/-- A field that comes again later does not count. -/
theorem insertField_canonicalFields {name : String} {fields : List (String × Json)}
    (h : name ∈ fields.map Prod.fst) (value : Json) :
    insertField name value (canonicalFields fields) = canonicalFields fields := by
  induction fields with
  | nil => simp at h
  | cons field rest ih =>
      obtain ⟨name', value'⟩ := field
      rw [canonicalFields]
      by_cases heq : name = name'
      · rw [heq, insertField_insertField]
      · have hrest : name ∈ rest.map Prod.fst := by simpa [heq] using h
        rw [insertField_comm heq, ih hrest]

/-- Where a field stands does not matter if there is no other of its name before. -/
theorem canonicalFields_middle {name : String} {before : List (String × Json)}
    (h : name ∉ before.map Prod.fst) (value : Json) (rest : List (String × Json)) :
    canonicalFields (before ++ (name, value) :: rest) =
      insertField name value.canonical (canonicalFields (before ++ rest)) := by
  induction before with
  | nil => rfl
  | cons field before ih =>
      simp only [List.map_cons, List.mem_cons, not_or] at h
      rw [List.cons_append, canonicalFields, ih h.2, insertField_comm (Ne.symm h.1),
        List.cons_append, canonicalFields]

theorem canonicalFields_insertEntry (name : String) (value : Json)
    {fields : List (String × Json)} (h : (fields.map Prod.fst).Nodup)
    (rest : List (String × Json)) :
    canonicalFields ((OrderedMap.insertEntry name value fields).2 ++ rest) =
      canonicalFields (fields ++ (name, value) :: rest) := by
  induction fields with
  | nil => rfl
  | cons field fields ih =>
      obtain ⟨name', value'⟩ := field
      obtain ⟨hnew, hnodup⟩ := List.nodup_cons.mp h
      by_cases heq : name' = name
      · subst heq
        have hlater : name' ∈ (fields ++ (name', value) :: rest).map Prod.fst := by simp
        simp only [OrderedMap.insertEntry, if_true, List.cons_append, canonicalFields]
        rw [insertField_canonicalFields hlater, canonicalFields_middle hnew]
      · simp only [OrderedMap.insertEntry, if_neg heq, List.cons_append, canonicalFields]
        rw [ih hnodup]

theorem canonicalFields_insertAll {map : OrderedMap String Json} (h : map.keys.Nodup)
    (fields : List (String × Json)) :
    canonicalFields (map.insertAll fields).entries = canonicalFields (map.entries ++ fields) := by
  induction fields generalizing map with
  | nil => simp
  | cons field rest ih =>
      obtain ⟨name, value⟩ := field
      rw [OrderedMap.insertAll_cons, ih (OrderedMap.nodup_keys_insert name value h),
        OrderedMap.entries_insert, canonicalFields_insertEntry name value h]

/-- Merging the fields of one name does not change the canonical form. -/
theorem canonicalFields_mergeFields (fields : List (String × Json)) :
    canonicalFields (Tree.mergeFields fields) = canonicalFields fields := by
  have hempty : (OrderedMap.empty : OrderedMap String Json).keys.Nodup := List.nodup_nil
  exact canonicalFields_insertAll hempty fields

/-! ## Values of trees -/

mutual

theorem toJson?_ofJson : ∀ {limit : Nat} (json : Json), json.depth ≤ limit →
    ∃ read, (Tree.ofJson json).toJson? limit = some read ∧ read.canonical = json.canonical
  | _, .null, _ => ⟨_, rfl, rfl⟩
  | _, .bool _, _ => ⟨_, rfl, rfl⟩
  | _, .number _, _ => ⟨_, rfl, rfl⟩
  | _, .string _, _ => ⟨_, rfl, rfl⟩
  | 0, .array items, h => absurd h (Nat.not_le.mpr (depth_array_pos items))
  | limit + 1, .array items, h => by
      obtain ⟨read, hread, hcanonical⟩ :=
        itemsToJson?_ofItems items (depth_array_le_succ_iff.mp h)
      refine ⟨.array read, ?_, congrArg array hcanonical⟩
      simp [Tree.ofJson, Tree.toJson?, hread]
  | 0, .object fields, h => absurd h (Nat.not_le.mpr (depth_object_pos fields))
  | limit + 1, .object fields, h => by
      obtain ⟨read, hread, hcanonical⟩ :=
        fieldsToJson?_ofFields fields (depth_object_le_succ_iff.mp h)
      refine ⟨.object (Tree.mergeFields read), ?_, congrArg object ?_⟩
      · simp [Tree.ofJson, Tree.toJson?, hread]
      · rw [canonicalFields_mergeFields, hcanonical]

theorem itemsToJson?_ofItems : ∀ {limit : Nat} (items : List Json),
    (∀ item ∈ items, item.depth ≤ limit) →
      ∃ read, Tree.itemsToJson? limit (Tree.ofItems items) = some read ∧
        canonicalItems read = canonicalItems items
  | _, [], _ => ⟨[], rfl, rfl⟩
  | limit, item :: rest, h => by
      obtain ⟨hitem, hrest⟩ := List.forall_mem_cons.mp h
      obtain ⟨value, hvalue, hcanonical⟩ := toJson?_ofJson item hitem
      obtain ⟨values, hvalues, hcanonicals⟩ := itemsToJson?_ofItems rest hrest
      refine ⟨value :: values, ?_, ?_⟩
      · simp [Tree.ofItems, Tree.itemsToJson?, hvalue, hvalues]
      · simp [canonicalItems, hcanonical, hcanonicals]

theorem fieldsToJson?_ofFields : ∀ {limit : Nat} (fields : List (String × Json)),
    (∀ field ∈ fields, field.2.depth ≤ limit) →
      ∃ read, Tree.fieldsToJson? limit (Tree.ofFields fields) = some read ∧
        canonicalFields read = canonicalFields fields
  | _, [], _ => ⟨[], rfl, rfl⟩
  | limit, (name, value) :: rest, h => by
      obtain ⟨hvalue, hrest⟩ := List.forall_mem_cons.mp h
      obtain ⟨read, hread, hcanonical⟩ := toJson?_ofJson value hvalue
      obtain ⟨fields, hfields, hcanonicals⟩ := fieldsToJson?_ofFields rest hrest
      refine ⟨(name, read) :: fields, ?_, ?_⟩
      · simp [Tree.ofFields, Tree.fieldsToJson?, hread, hfields]
      · simp [canonicalFields, hcanonical, hcanonicals]

end

mutual

theorem depth_le_of_toJson? : ∀ {limit : Nat} {json read : Json},
    (Tree.ofJson json).toJson? limit = some read → json.depth ≤ limit
  | _, .null, _, _ => Nat.zero_le _
  | _, .bool _, _, _ => Nat.zero_le _
  | _, .number _, _, _ => Nat.zero_le _
  | _, .string _, _, _ => Nat.zero_le _
  | 0, .array items, _, h => by simp [Tree.ofJson, Tree.toJson?] at h
  | limit + 1, .array items, _, h => by
      simp only [Tree.ofJson, Tree.toJson?, Option.map_eq_some_iff] at h
      obtain ⟨read, hread, -⟩ := h
      exact depth_array_le_succ_iff.mpr (depth_le_of_itemsToJson? hread)
  | 0, .object fields, _, h => by simp [Tree.ofJson, Tree.toJson?] at h
  | limit + 1, .object fields, _, h => by
      simp only [Tree.ofJson, Tree.toJson?, Option.map_eq_some_iff] at h
      obtain ⟨read, hread, -⟩ := h
      exact depth_object_le_succ_iff.mpr (depth_le_of_fieldsToJson? hread)

theorem depth_le_of_itemsToJson? : ∀ {limit : Nat} {items read : List Json},
    Tree.itemsToJson? limit (Tree.ofItems items) = some read → ∀ item ∈ items, item.depth ≤ limit
  | _, [], _, _ => by simp
  | limit, item :: rest, _, h => by
      simp only [Tree.ofItems, Tree.itemsToJson?] at h
      split at h
      · rename_i hitem hrest
        exact List.forall_mem_cons.mpr ⟨depth_le_of_toJson? hitem, depth_le_of_itemsToJson? hrest⟩
      · simp at h

theorem depth_le_of_fieldsToJson? : ∀ {limit : Nat} {fields read : List (String × Json)},
    Tree.fieldsToJson? limit (Tree.ofFields fields) = some read →
      ∀ field ∈ fields, field.2.depth ≤ limit
  | _, [], _, _ => by simp
  | limit, (name, value) :: rest, _, h => by
      simp only [Tree.ofFields, Tree.fieldsToJson?] at h
      split at h
      · rename_i hvalue hrest
        exact List.forall_mem_cons.mpr
          ⟨depth_le_of_toJson? hvalue, depth_le_of_fieldsToJson? hrest⟩
      · simp at h

end

end Json

end DocumentQuery
