import DocumentQuery.OrderedMap
import Mathlib.Data.List.Nodup
/-!
# The laws of insertion-ordered maps

What an insertion does to the keys, to the entries and to the look-up. A map
that comes from insertions alone has different keys (`nodup_keys_ofList`), and
pairs with different keys are kept as they stand (`entries_ofList`). The two
together say that collecting pairs does nothing to a list that is a map already.
`duplicate?` answers `none` exactly for the maps with different keys, and else
the key of the first entry whose key an entry before it has.
-/

namespace DocumentQuery

namespace OrderedMap

variable {κ α : Type} [DecidableEq κ]

/-! ## Entries -/

theorem insertEntry_of_not_mem {key : κ} (value : α) {entries : List (κ × α)}
    (h : key ∉ entries.map Prod.fst) :
    insertEntry key value entries = (none, entries ++ [(key, value)]) := by
  induction entries with
  | nil => rfl
  | cons entry rest ih =>
      simp only [List.map_cons, List.mem_cons, not_or] at h
      simp [insertEntry, Ne.symm h.1, ih h.2]

/-- An insertion keeps the keys in their order, and adds its own if it is new. -/
theorem keys_insertEntry (key : κ) (value : α) (entries : List (κ × α)) :
    (insertEntry key value entries).2.map Prod.fst =
      if key ∈ entries.map Prod.fst then entries.map Prod.fst
      else entries.map Prod.fst ++ [key] := by
  induction entries with
  | nil => simp [insertEntry]
  | cons entry rest ih =>
      by_cases hkey : entry.1 = key
      · simp [insertEntry, hkey]
      · by_cases hrest : key ∈ rest.map Prod.fst
        · simp [insertEntry, hkey, ih, hrest]
        · simp [insertEntry, hkey, ih, hrest, Ne.symm hkey]

theorem mem_insertEntry {key : κ} {value : α} {entries : List (κ × α)} {entry : κ × α}
    (h : entry ∈ (insertEntry key value entries).2) : entry = (key, value) ∨ entry ∈ entries := by
  induction entries with
  | nil => simpa [insertEntry] using h
  | cons first rest ih =>
      by_cases hkey : first.1 = key
      · have hcases : entry = (key, value) ∨ entry ∈ rest := by
          simpa [insertEntry, hkey] using h
        exact hcases.imp id (List.mem_cons_of_mem first)
      · have hcases : entry = first ∨ entry ∈ (insertEntry key value rest).2 := by
          simpa [insertEntry, hkey] using h
        rcases hcases with rfl | hrest
        · exact Or.inr (by simp)
        · exact (ih hrest).imp id (List.mem_cons_of_mem first)

/-! ## Maps -/

theorem entries_insert (map : OrderedMap κ α) (key : κ) (value : α) :
    (map.insert key value).2.entries = (insertEntry key value map.entries).2 := rfl

theorem keys_insert (map : OrderedMap κ α) (key : κ) (value : α) :
    (map.insert key value).2.keys = if key ∈ map.keys then map.keys else map.keys ++ [key] :=
  keys_insertEntry key value map.entries

theorem nodup_keys_insert {map : OrderedMap κ α} (key : κ) (value : α) (h : map.keys.Nodup) :
    (map.insert key value).2.keys.Nodup := by
  rw [keys_insert]
  split
  · exact h
  · rename_i hkey
    rw [← List.concat_eq_append, List.nodup_concat]
    exact ⟨hkey, h⟩

theorem nodup_keys_insertAll {map : OrderedMap κ α} (pairs : List (κ × α))
    (h : map.keys.Nodup) : (map.insertAll pairs).keys.Nodup := by
  induction pairs generalizing map with
  | nil => exact h
  | cons pair rest ih => exact ih (nodup_keys_insert pair.1 pair.2 h)

theorem nodup_keys_ofList (pairs : List (κ × α)) : (ofList pairs).keys.Nodup :=
  nodup_keys_insertAll pairs (by simp [keys, empty])

theorem mem_entries_insertAll {map : OrderedMap κ α} {pairs : List (κ × α)} {entry : κ × α}
    (h : entry ∈ (map.insertAll pairs).entries) : entry ∈ map.entries ∨ entry ∈ pairs := by
  induction pairs generalizing map with
  | nil => exact Or.inl h
  | cons pair rest ih =>
      rcases ih h with hmap | hrest
      · rcases mem_insertEntry hmap with rfl | hold
        · exact Or.inr (by simp)
        · exact Or.inl hold
      · exact Or.inr (List.mem_cons_of_mem pair hrest)

/-- Nothing is bound in a collected map but what was collected. -/
theorem mem_of_mem_entries_ofList {pairs : List (κ × α)} {entry : κ × α}
    (h : entry ∈ (ofList pairs).entries) : entry ∈ pairs := by
  rcases mem_entries_insertAll h with hempty | hpairs
  · simp [empty] at hempty
  · exact hpairs

theorem entries_insertAll {map : OrderedMap κ α} {pairs : List (κ × α)}
    (h : (map.keys ++ pairs.map Prod.fst).Nodup) :
    (map.insertAll pairs).entries = map.entries ++ pairs := by
  induction pairs generalizing map with
  | nil => simp
  | cons pair rest ih =>
      have hnew : pair.1 ∉ map.entries.map Prod.fst := by
        intro hmem
        exact List.disjoint_of_nodup_append h hmem (by simp)
      have hentries : (map.insert pair.1 pair.2).2.entries = map.entries ++ [pair] := by
        rw [entries_insert, insertEntry_of_not_mem pair.2 hnew]
      have hkeys : ((map.insert pair.1 pair.2).2.keys ++ rest.map Prod.fst).Nodup := by
        simpa [keys, hentries] using h
      have hrest := ih hkeys
      rw [insertAll_cons, hrest, hentries, List.append_assoc, List.singleton_append]

/-- Pairs with different keys are collected as they stand. -/
theorem entries_ofList {pairs : List (κ × α)} (h : (pairs.map Prod.fst).Nodup) :
    (ofList pairs).entries = pairs := by
  have hkeys : ((empty : OrderedMap κ α).keys ++ pairs.map Prod.fst).Nodup := by
    simpa [keys, empty] using h
  rw [ofList, entries_insertAll hkeys, empty, List.nil_append]

theorem ofList_entries {map : OrderedMap κ α} (h : map.keys.Nodup) :
    ofList map.entries = map := by
  cases map with
  | mk entries => exact congrArg OrderedMap.mk (entries_ofList h)

/-! ## Other values under the same keys -/

/-- The map with new values in place of the old ones. -/
def mapValues {β : Type} (map : OrderedMap κ α) (new : α → β) : OrderedMap κ β :=
  ⟨map.entries.map fun entry => (entry.1, new entry.2)⟩

section MapValues

variable {β : Type} (new : α → β)

omit [DecidableEq κ] in
@[simp] theorem keys_mapValues (map : OrderedMap κ α) : (map.mapValues new).keys = map.keys := by
  simp [keys, mapValues, Function.comp_def]

omit [DecidableEq κ] in
theorem mapValues_mapValues {γ : Type} (map : OrderedMap κ α) (later : β → γ) :
    (map.mapValues new).mapValues later = map.mapValues fun value => later (new value) := by
  simp [mapValues, Function.comp_def]

omit [DecidableEq κ] in
theorem mapValues_congr {map : OrderedMap κ α} {new other : α → β}
    (h : ∀ entry ∈ map.entries, new entry.2 = other entry.2) :
    map.mapValues new = map.mapValues other := by
  refine congrArg OrderedMap.mk (List.map_congr_left fun entry hentry => ?_)
  rw [h entry hentry]

theorem insertEntry_map (key : κ) (value : α) (entries : List (κ × α)) :
    (insertEntry key (new value) (entries.map fun entry => (entry.1, new entry.2))).2 =
      (insertEntry key value entries).2.map fun entry => (entry.1, new entry.2) := by
  induction entries with
  | nil => rfl
  | cons entry rest ih =>
      by_cases hkey : entry.1 = key
      · simp [insertEntry, hkey]
      · simp [insertEntry, hkey, ih]

theorem insertAll_mapValues (map : OrderedMap κ α) (pairs : List (κ × α)) :
    (map.mapValues new).insertAll (pairs.map fun pair => (pair.1, new pair.2)) =
      (map.insertAll pairs).mapValues new := by
  induction pairs generalizing map with
  | nil => rfl
  | cons pair rest ih =>
      have hinsert : ((map.mapValues new).insert pair.1 (new pair.2)).2 =
          (map.insert pair.1 pair.2).2.mapValues new :=
        congrArg OrderedMap.mk (insertEntry_map new pair.1 pair.2 map.entries)
      rw [List.map_cons, insertAll_cons, hinsert, ih, insertAll_cons]

/-- It is the same to replace values before and after they are collected. -/
theorem ofList_map (pairs : List (κ × α)) :
    ofList (pairs.map fun pair => (pair.1, new pair.2)) = (ofList pairs).mapValues new :=
  insertAll_mapValues new empty pairs

end MapValues

/-! ## Look-up -/

theorem lookupEntry_eq_none_iff (key : κ) (entries : List (κ × α)) :
    lookupEntry key entries = none ↔ key ∉ entries.map Prod.fst := by
  induction entries with
  | nil => simp [lookupEntry]
  | cons entry rest ih =>
      by_cases hkey : entry.1 = key
      · simp [lookupEntry, hkey]
      · simp [lookupEntry, hkey, ih, Ne.symm hkey]

theorem mem_of_lookupEntry {key : κ} {value : α} {entries : List (κ × α)}
    (h : lookupEntry key entries = some value) : (key, value) ∈ entries := by
  induction entries with
  | nil => simp [lookupEntry] at h
  | cons entry rest ih =>
      by_cases hkey : entry.1 = key
      · have hvalue : entry.2 = value := by simpa [lookupEntry, hkey] using h
        have hentry : entry = (key, value) := Prod.ext hkey hvalue
        simp [hentry]
      · exact List.mem_cons_of_mem entry (ih (by simpa [lookupEntry, hkey] using h))

/-- Where the keys differ, the look-up finds every entry. -/
theorem lookupEntry_eq_some_iff {key : κ} {value : α} {entries : List (κ × α)}
    (hnodup : (entries.map Prod.fst).Nodup) :
    lookupEntry key entries = some value ↔ (key, value) ∈ entries := by
  refine ⟨mem_of_lookupEntry, fun h => ?_⟩
  induction entries with
  | nil => simp at h
  | cons entry rest ih =>
      obtain ⟨hnew, hrest⟩ := List.nodup_cons.mp hnodup
      rcases List.mem_cons.mp h with rfl | hmem
      · simp [lookupEntry]
      · have hkey : entry.1 ≠ key := by
          rintro rfl
          exact hnew (List.mem_map.mpr ⟨(entry.1, value), hmem, rfl⟩)
        simpa [lookupEntry, hkey] using ih hrest hmem

theorem lookupEntry_insertEntry (key other : κ) (value : α) (entries : List (κ × α)) :
    lookupEntry other (insertEntry key value entries).2 =
      if key = other then some value else lookupEntry other entries := by
  induction entries with
  | nil => simp [insertEntry, lookupEntry]
  | cons entry rest ih =>
      by_cases hkey : entry.1 = key
      · by_cases hother : key = other <;> simp [insertEntry, lookupEntry, hkey, hother]
      · by_cases hother : entry.1 = other
        · simp [insertEntry, lookupEntry, hother ▸ hkey, hother, Ne.symm (hother ▸ hkey)]
        · simp [insertEntry, lookupEntry, hkey, hother, ih]

theorem fst_insertEntry (key : κ) (value : α) (entries : List (κ × α)) :
    (insertEntry key value entries).1 = lookupEntry key entries := by
  induction entries with
  | nil => rfl
  | cons entry rest ih =>
      by_cases hkey : entry.1 = key
      · simp [insertEntry, lookupEntry, hkey]
      · simp [insertEntry, lookupEntry, hkey, ih]

/-- An insertion returns what its key was bound to. -/
theorem fst_insert (map : OrderedMap κ α) (key : κ) (value : α) :
    (map.insert key value).1 = map.get? key :=
  fst_insertEntry key value map.entries

/-- An insertion changes what is bound to its own key only. -/
theorem get?_insert (map : OrderedMap κ α) (key other : κ) (value : α) :
    (map.insert key value).2.get? other = if key = other then some value else map.get? other :=
  lookupEntry_insertEntry key other value map.entries

theorem get?_eq_some_iff {map : OrderedMap κ α} (h : map.keys.Nodup) (key : κ) (value : α) :
    map.get? key = some value ↔ (key, value) ∈ map.entries :=
  lookupEntry_eq_some_iff h

theorem get?_eq_none_iff (map : OrderedMap κ α) (key : κ) :
    map.get? key = none ↔ key ∉ map.keys :=
  lookupEntry_eq_none_iff key map.entries

/-! ## Repeated keys -/

theorem firstRepeated_eq_none_iff (seen keys : List κ) :
    firstRepeated seen keys = none ↔ keys.Nodup ∧ ∀ key ∈ keys, key ∉ seen := by
  induction keys generalizing seen with
  | nil => simp [firstRepeated]
  | cons key rest ih =>
      by_cases hseen : key ∈ seen
      · simp [firstRepeated, hseen]
      · rw [firstRepeated, if_neg hseen, ih (key :: seen), List.nodup_cons]
        constructor
        · rintro ⟨hrest, hnew⟩
          refine ⟨⟨fun hmem => hnew key hmem (by simp), hrest⟩, ?_⟩
          intro other hother
          rcases List.mem_cons.mp hother with rfl | hmem
          · exact hseen
          · exact fun h => hnew other hmem (List.mem_cons_of_mem key h)
        · rintro ⟨⟨hnew, hrest⟩, hall⟩
          refine ⟨hrest, fun other hother hmem => ?_⟩
          rcases List.mem_cons.mp hmem with rfl | h
          · exact hnew hother
          · exact hall other (List.mem_cons_of_mem key hother) h

theorem firstRepeated_eq_some_iff (seen keys : List κ) (key : κ) :
    firstRepeated seen keys = some key ↔
      ∃ before after, keys = before ++ key :: after ∧ firstRepeated seen before = none ∧
        (key ∈ before ∨ key ∈ seen) := by
  induction keys generalizing seen with
  | nil => simp [firstRepeated]
  | cons first rest ih =>
      by_cases hseen : first ∈ seen
      · rw [firstRepeated, if_pos hseen]
        constructor
        · intro h
          obtain rfl := Option.some.inj h
          exact ⟨[], rest, rfl, rfl, Or.inr hseen⟩
        · rintro ⟨before, after, hkeys, hbefore, -⟩
          cases before with
          | nil => rw [(List.cons.inj hkeys).1]
          | cons other before =>
              rw [← (List.cons.inj hkeys).1, firstRepeated, if_pos hseen] at hbefore
              exact absurd hbefore (by simp)
      · rw [firstRepeated, if_neg hseen, ih (first :: seen)]
        constructor
        · rintro ⟨before, after, rfl, hbefore, hkey⟩
          refine ⟨first :: before, after, rfl, by rwa [firstRepeated, if_neg hseen], ?_⟩
          simpa [or_left_comm, or_assoc] using hkey
        · rintro ⟨before, after, hkeys, hbefore, hkey⟩
          cases before with
          | nil =>
              obtain rfl := (List.cons.inj hkeys).1
              exact absurd hkey (by simpa using hseen)
          | cons other before =>
              obtain ⟨rfl, hrest⟩ := List.cons.inj hkeys
              rw [firstRepeated, if_neg hseen] at hbefore
              refine ⟨before, after, hrest, hbefore, ?_⟩
              simpa [or_left_comm, or_assoc] using hkey

theorem duplicate?_eq_none_iff (map : OrderedMap κ α) :
    map.duplicate? = none ↔ map.keys.Nodup := by
  simp [duplicate?, firstRepeated_eq_none_iff]

/-- The entry whose key is answered is the first that repeats one. -/
theorem duplicate?_eq_some_iff (map : OrderedMap κ α) (key : κ) :
    map.duplicate? = some key ↔
      ∃ before value after, map.entries = before ++ (key, value) :: after ∧
        (before.map Prod.fst).Nodup ∧ key ∈ before.map Prod.fst := by
  rw [duplicate?, firstRepeated_eq_some_iff]
  constructor
  · rintro ⟨before, after, hkeys, hbefore, hkey⟩
    rw [firstRepeated_eq_none_iff] at hbefore
    obtain ⟨earlier, rest, hentries, rfl, hrest⟩ := List.map_eq_append_iff.mp hkeys
    obtain ⟨⟨other, value⟩, later, rfl, rfl, -⟩ := List.map_eq_cons_iff.mp hrest
    exact ⟨earlier, value, later, hentries, hbefore.1, by simpa using hkey⟩
  · rintro ⟨before, value, after, hentries, hnodup, hkey⟩
    refine ⟨before.map Prod.fst, after.map Prod.fst, by simp [keys, hentries], ?_, Or.inl hkey⟩
    exact (firstRepeated_eq_none_iff [] _).mpr ⟨hnodup, by simp⟩

end OrderedMap

end DocumentQuery
