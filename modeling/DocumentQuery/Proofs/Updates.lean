import DocumentQuery.Proofs.OrderedMap
import Mathlib.Data.Finset.Card
/-!
# Updates of insertion-ordered maps

What updates make of the empty map is told by the pairs that were inserted since
the map was last cleared (`insertions`), and by nothing before that: a key is
bound to the value that was inserted last under it, and the keys stand in the
order in which they were inserted first (`MadeOf`). An insertion keeps this up,
be it under a new key or an old one (`MadeOf.insert`), and so do updates of any
number and kind (`madeOf_insertions`). All that can be observed of the map
follows from the two facts (`observed_ofUpdates`).
-/

namespace DocumentQuery

namespace OrderedMap

variable {κ α : Type}

/-- What is done to a map. Collecting pairs begins a new map with them. -/
inductive Update (κ α : Type) where
  | insert (key : κ) (value : α)
  | clear
  | collect (pairs : List (κ × α))

/-! ## What was inserted -/

/-- The pairs inserted since the last clearing, given those before an update. -/
def Update.extend (inserted : List (κ × α)) : Update κ α → List (κ × α)
  | .insert key value => inserted ++ [(key, value)]
  | .clear => []
  | .collect pairs => pairs

/-- The pairs that updates insert and do not clear away, the earliest first. -/
def insertions (updates : List (Update κ α)) : List (κ × α) :=
  updates.foldl Update.extend []

variable [DecidableEq κ]

/-- The value of the last pair with a key. -/
def lastInserted? (inserted : List (κ × α)) (key : κ) : Option α :=
  inserted.reverse.lookup key

theorem lastInserted?_append_singleton (inserted : List (κ × α)) (key other : κ) (value : α) :
    lastInserted? (inserted ++ [(key, value)]) other =
      if key = other then some value else lastInserted? inserted other := by
  rw [lastInserted?, List.reverse_append, List.reverse_singleton, List.singleton_append,
    List.lookup_cons, lastInserted?]
  by_cases hkey : key = other
  · simp [hkey]
  · have hother : (other == key) = false := beq_false_of_ne (Ne.symm hkey)
    rw [if_neg hkey, hother]

/-! ## What a map is made of -/

/-- The map after an update. -/
def after (map : OrderedMap κ α) : Update κ α → OrderedMap κ α
  | .insert key value => (map.insert key value).2
  | .clear => empty
  | .collect pairs => ofList pairs

/-- The map after updates of the empty one, from the first on. -/
def ofUpdates (updates : List (Update κ α)) : OrderedMap κ α :=
  updates.foldl after empty

/-- A map is what the insertion of pairs into the empty map leaves. -/
structure MadeOf (map : OrderedMap κ α) (inserted : List (κ × α)) : Prop where
  /-- A key is bound to what was inserted last under it. -/
  get? : ∀ key, map.get? key = lastInserted? inserted key
  /-- Each key is listed once, in the order of the first insertions. -/
  keys : map.keys = (inserted.map Prod.fst).eraseDups
  nodup : map.keys.Nodup

namespace MadeOf

variable {map : OrderedMap κ α} {inserted : List (κ × α)}

theorem empty : MadeOf (empty : OrderedMap κ α) [] where
  get? _ := rfl
  keys := rfl
  nodup := List.nodup_nil

theorem mem_keys_iff (h : map.MadeOf inserted) (key : κ) :
    key ∈ map.keys ↔ key ∈ inserted.map Prod.fst := by
  rw [h.keys, List.mem_eraseDups]

theorem insert (h : map.MadeOf inserted) (key : κ) (value : α) :
    (map.insert key value).2.MadeOf (inserted ++ [(key, value)]) where
  get? other := by
    rw [get?_insert, lastInserted?_append_singleton, h.get?]
  keys := by
    rw [keys_insert, List.map_append, List.map_singleton, List.eraseDups_append, ← h.keys]
    by_cases hkey : key ∈ map.keys
    · -- the new pair repeats a key, and nothing of it is left to list
      have hold : key ∈ inserted.map Prod.fst := (h.mem_keys_iff key).mp hkey
      simp [hkey, List.removeAll, hold]
    · have hnew : key ∉ inserted.map Prod.fst := fun hold => hkey ((h.mem_keys_iff key).mpr hold)
      simp [hkey, List.removeAll, hnew, List.eraseDups_cons]
  nodup := nodup_keys_insert key value h.nodup

theorem insertAll (h : map.MadeOf inserted) (pairs : List (κ × α)) :
    (map.insertAll pairs).MadeOf (inserted ++ pairs) := by
  induction pairs generalizing map inserted with
  | nil => simpa using h
  | cons pair rest ih =>
      rw [List.append_cons, insertAll_cons]
      exact ih (h.insert pair.1 pair.2)

theorem after (h : map.MadeOf inserted) (update : Update κ α) :
    (map.after update).MadeOf (update.extend inserted) := by
  cases update with
  | insert key value => exact h.insert key value
  | clear => exact MadeOf.empty
  | collect pairs => exact MadeOf.empty.insertAll pairs

theorem foldl_after (h : map.MadeOf inserted) (updates : List (Update κ α)) :
    (updates.foldl OrderedMap.after map).MadeOf (updates.foldl Update.extend inserted) := by
  induction updates generalizing map inserted with
  | nil => exact h
  | cons update rest ih => exact ih (h.after update)

/-! ### What is observed -/

theorem contains_iff (h : map.MadeOf inserted) (key : κ) :
    map.contains key = true ↔ key ∈ inserted.map Prod.fst := by
  rw [contains, Option.isSome_iff_ne_none, ne_eq, get?_eq_none_iff, not_not, h.mem_keys_iff]

theorem fst_insert (h : map.MadeOf inserted) (key : κ) (value : α) :
    (map.insert key value).1 = lastInserted? inserted key := by
  rw [OrderedMap.fst_insert, h.get?]

theorem mem_entries_iff (h : map.MadeOf inserted) (key : κ) (value : α) :
    (key, value) ∈ map.entries ↔ lastInserted? inserted key = some value := by
  rw [← get?_eq_some_iff h.nodup, h.get?]

theorem size_eq (h : map.MadeOf inserted) :
    map.size = (inserted.map Prod.fst).toFinset.card := by
  have hkeys : (inserted.map Prod.fst).toFinset = map.keys.toFinset := by
    ext key
    rw [List.mem_toFinset, List.mem_toFinset, h.mem_keys_iff]
  rw [hkeys, List.toFinset_card_of_nodup h.nodup, OrderedMap.keys, List.length_map, size]

end MadeOf

theorem madeOf_insertions (updates : List (Update κ α)) :
    (ofUpdates updates).MadeOf (insertions updates) :=
  MadeOf.empty.foldl_after updates

/-- A key that is bound anew keeps its place, until the map is cleared. -/
example :
    (ofUpdates [.insert 'a' 1, .insert 'b' 2, .insert 'a' 3]).entries = [('a', 3), ('b', 2)] ∧
    (ofUpdates [.insert 'a' 1, .clear, .insert 'b' 2, .insert 'a' 3]).entries =
      [('b', 2), ('a', 3)] := by
  decide

/-- After any updates of the empty map, a key is bound to the value that was
inserted last under it since the last clearing, an insertion returns that value,
and the entries list each key once, in order of its first insertion since then.
No key is repeated in such a map. In a map that may repeat keys, the first entry
whose key an entry before it has is found, if there is one. -/
theorem observed_ofUpdates :
    (∀ updates : List (Update κ α),
      let map := ofUpdates updates
      let inserted := insertions updates
      (∀ key, map.get? key = lastInserted? inserted key) ∧
      (∀ key, map.contains key = true ↔ key ∈ inserted.map Prod.fst) ∧
      (∀ key value, (map.insert key value).1 = lastInserted? inserted key) ∧
      map.keys = (inserted.map Prod.fst).eraseDups ∧ map.keys.Nodup ∧
      (∀ key value, (key, value) ∈ map.entries ↔ lastInserted? inserted key = some value) ∧
      map.size = (inserted.map Prod.fst).toFinset.card ∧
      map.duplicate? = none) ∧
    ∀ map : OrderedMap κ α,
      (map.duplicate? = none ↔ map.keys.Nodup) ∧
      ∀ key, map.duplicate? = some key ↔
        ∃ earlier value later, map.entries = earlier ++ (key, value) :: later ∧
          (earlier.map Prod.fst).Nodup ∧ key ∈ earlier.map Prod.fst := by
  constructor
  · intro updates map inserted
    have h : map.MadeOf inserted := madeOf_insertions updates
    exact ⟨h.get?, h.contains_iff, h.fst_insert, h.keys, h.nodup, h.mem_entries_iff, h.size_eq,
      (duplicate?_eq_none_iff map).mpr h.nodup⟩
  · intro map
    exact ⟨duplicate?_eq_none_iff map, duplicate?_eq_some_iff map⟩

end OrderedMap

end DocumentQuery
