import DocumentQuery.Projection.Freeze
import DocumentQuery.Proofs.Alias
import DocumentQuery.Proofs.OrderedMap
import DocumentQuery.Proofs.Sameness
import Mathlib.Logic.Relation
/-!
# What freezing leaves behind

Columns and the bindings into them belong together: no two columns have
colliding aliases, no position is bound twice, and every position is bound to a
column that is there (`Fits`). Providing a column keeps this, so freezing
establishes it. Every column shows an expression that it was asked to show, and
stays where it is when more columns are provided (`GrowsTo`).
-/

namespace DocumentQuery

/-- Columns and bindings that fit together. -/
structure Fits (columns : List Column) (bindings : Mapping Nat) : Prop where
  aliases : Alias.Distinct (columns.map (·.aliasName))
  members : bindings.keys.Nodup
  bound : ∀ entry ∈ bindings.entries, entry.2 < columns.length

/-! ## Providing a column -/

theorem exists_of_columnOf? {expression : Projected} {columns : List Column} {number : Nat}
    (h : columnOf? expression columns = some number) :
    ∃ column, columns[number]? = some column ∧ column.expression.same expression = true := by
  induction columns generalizing number with
  | nil => simp [columnOf?] at h
  | cons column rest ih =>
      rw [columnOf?] at h
      split at h
      · rename_i hsame
        obtain rfl := Option.some.inj h
        exact ⟨column, rfl, hsame⟩
      · obtain ⟨before, hbefore, rfl⟩ := Option.map_eq_some_iff.mp h
        exact ih hbefore

theorem columnOf?_lt {expression : Projected} {columns : List Column} {number : Nat}
    (h : columnOf? expression columns = some number) : number < columns.length := by
  obtain ⟨column, hcolumn, -⟩ := exists_of_columnOf? h
  exact (List.getElem?_eq_some_iff.mp hcolumn).1

theorem columnOf?_eq_none_iff {expression : Projected} {columns : List Column} :
    columnOf? expression columns = none ↔
      ∀ column ∈ columns, column.expression.same expression = false := by
  induction columns with
  | nil => simp [columnOf?]
  | cons column rest ih =>
      cases hsame : column.expression.same expression <;> simp [columnOf?, hsame, ih]

section PushColumn

variable (columns : List Column) (expression : Projected) (name : Option String)
  (fallback : String)

/-- A column that shows the same is provided as it is; where none does, a new
column is added at the end. -/
theorem pushColumn_cases :
    (∃ number column, columns[number]? = some column ∧
        column.expression.same expression = true ∧
        pushColumn columns expression name fallback = (number, columns)) ∨
      (∀ column ∈ columns, column.expression.same expression = false) ∧
        pushColumn columns expression name fallback =
          (columns.length, columns ++ [newColumn columns expression name fallback]) := by
  unfold pushColumn
  split
  · rename_i number hfound
    obtain ⟨column, hcolumn, hsame⟩ := exists_of_columnOf? hfound
    exact Or.inl ⟨number, column, hcolumn, hsame, rfl⟩
  · rename_i hnone
    exact Or.inr ⟨columnOf?_eq_none_iff.mp hnone, rfl⟩

theorem exists_getElem?_pushColumn :
    ∃ column, (pushColumn columns expression name fallback).2[
        (pushColumn columns expression name fallback).1]? = some column ∧
      column.expression.same expression = true := by
  rcases pushColumn_cases columns expression name fallback with
    ⟨number, column, hcolumn, hsame, hpushed⟩ | ⟨-, hpushed⟩
  · rw [hpushed]
    exact ⟨column, hcolumn, hsame⟩
  · rw [hpushed]
    exact ⟨newColumn columns expression name fallback, by simp, Projected.same_refl expression⟩

theorem fst_pushColumn_lt :
    (pushColumn columns expression name fallback).1 <
      (pushColumn columns expression name fallback).2.length := by
  obtain ⟨column, hcolumn, -⟩ := exists_getElem?_pushColumn columns expression name fallback
  exact (List.getElem?_eq_some_iff.mp hcolumn).1

/-- The columns stay where they are; at most one is added at the end. -/
theorem snd_pushColumn :
    (pushColumn columns expression name fallback).2 = columns ∨
      (pushColumn columns expression name fallback).2 =
        columns ++ [newColumn columns expression name fallback] := by
  unfold pushColumn
  split
  · exact Or.inl rfl
  · exact Or.inr rfl

theorem length_le_pushColumn :
    columns.length ≤ (pushColumn columns expression name fallback).2.length := by
  rcases snd_pushColumn columns expression name fallback with h | h <;> simp [h]

theorem distinct_pushColumn (h : Alias.Distinct (columns.map (·.aliasName))) :
    Alias.Distinct ((pushColumn columns expression name fallback).2.map (·.aliasName)) := by
  rcases snd_pushColumn columns expression name fallback with hcolumns | hcolumns
  · rwa [hcolumns]
  · rw [hcolumns, List.map_append]
    exact h.append_fresh _

theorem mem_pushColumn {column : Column}
    (h : column ∈ (pushColumn columns expression name fallback).2) :
    column ∈ columns ∨ column.expression = expression := by
  rcases snd_pushColumn columns expression name fallback with hcolumns | hcolumns
  · exact Or.inl (hcolumns ▸ h)
  · rw [hcolumns, List.mem_append, List.mem_singleton] at h
    rcases h with hold | rfl
    · exact Or.inl hold
    · exact Or.inr rfl

end PushColumn

/-! ## Columns that are provided one after the other -/

/-- The columns `later` come from `columns` by providing some more of them. -/
def GrowsTo : List Column → List Column → Prop :=
  Relation.ReflTransGen fun columns later =>
    ∃ expression name fallback, later = (pushColumn columns expression name fallback).2

theorem growsTo_pushColumn (columns : List Column) (expression : Projected)
    (name : Option String) (fallback : String) :
    GrowsTo columns (pushColumn columns expression name fallback).2 :=
  .single ⟨expression, name, fallback, rfl⟩

theorem growsTo_freezeFrom (fallback : String) (columns : List Column) (bindings : Mapping Nat)
    (entries : List (Member × Projected)) :
    GrowsTo columns (freezeFrom fallback columns bindings entries).1 := by
  induction entries generalizing columns bindings with
  | nil => exact .refl
  | cons entry rest ih =>
      exact (growsTo_pushColumn columns entry.2 entry.1.lastName? fallback).trans (ih _ _)

theorem GrowsTo.getElem? {columns later : List Column} (h : GrowsTo columns later) {number : Nat}
    {column : Column} (hcolumn : columns[number]? = some column) :
    later[number]? = some column := by
  induction h with
  | refl => exact hcolumn
  | tail _ hpushed ih =>
      obtain ⟨expression, name, fallback, rfl⟩ := hpushed
      rcases snd_pushColumn _ expression name fallback with hkept | hadded
      · rw [hkept, ih]
      · rw [hadded, List.getElem?_append_left (List.getElem?_eq_some_iff.mp ih).1, ih]

theorem GrowsTo.mem {columns later : List Column} (h : GrowsTo columns later) {column : Column}
    (hmem : column ∈ columns) : column ∈ later := by
  obtain ⟨number, hcolumn⟩ := List.getElem?_of_mem hmem
  exact List.mem_of_getElem? (h.getElem? hcolumn)

/-! ## Columns and bindings -/

namespace Fits

theorem empty : Fits [] .empty where
  aliases := Alias.distinct_nil
  members := by simp [OrderedMap.keys, OrderedMap.empty]
  bound := by simp [OrderedMap.empty]

theorem clear {columns : List Column} {bindings : Mapping Nat} (h : Fits columns bindings) :
    Fits columns .empty where
  aliases := h.aliases
  members := empty.members
  bound := by simp [OrderedMap.empty]

theorem pushColumn {columns : List Column} {bindings : Mapping Nat} (h : Fits columns bindings)
    (expression : Projected) (name : Option String) (fallback : String) :
    Fits (pushColumn columns expression name fallback).2 bindings where
  aliases := distinct_pushColumn columns expression name fallback h.aliases
  members := h.members
  bound := fun entry hentry =>
    Nat.lt_of_lt_of_le (h.bound entry hentry)
      (length_le_pushColumn columns expression name fallback)

theorem insert {columns : List Column} {bindings : Mapping Nat} (h : Fits columns bindings)
    (member : Member) {number : Nat} (hnumber : number < columns.length) :
    Fits columns (bindings.insert member number).2 where
  aliases := h.aliases
  members := OrderedMap.nodup_keys_insert member number h.members
  bound := by
    intro entry hentry
    rcases OrderedMap.mem_insertEntry hentry with rfl | hold
    · exact hnumber
    · exact h.bound entry hold

/-! ## Freezing -/

theorem freezeFrom {columns : List Column} {bindings : Mapping Nat} (h : Fits columns bindings)
    (fallback : String) (entries : List (Member × Projected)) :
    Fits (freezeFrom fallback columns bindings entries).1
      (freezeFrom fallback columns bindings entries).2 := by
  induction entries generalizing columns bindings with
  | nil => exact h
  | cons entry rest ih =>
      have hpushed := h.pushColumn entry.2 entry.1.lastName? fallback
      exact ih (hpushed.insert entry.1 (fst_pushColumn_lt columns entry.2 _ fallback))

end Fits

theorem mem_freezeFrom {fallback : String} {columns : List Column} {bindings : Mapping Nat}
    {entries : List (Member × Projected)} {column : Column}
    (h : column ∈ (freezeFrom fallback columns bindings entries).1) :
    column ∈ columns ∨ ∃ entry ∈ entries, column.expression = entry.2 := by
  induction entries generalizing columns bindings with
  | nil => exact Or.inl h
  | cons entry rest ih =>
      rcases ih h with hpushed | ⟨other, hother, hshown⟩
      · rcases mem_pushColumn _ _ _ _ hpushed with hold | hshown
        · exact Or.inl hold
        · exact Or.inr ⟨entry, by simp, hshown⟩
      · exact Or.inr ⟨other, List.mem_cons_of_mem entry hother, hshown⟩

theorem exists_mem_freezeFrom {fallback : String} {columns : List Column} {bindings : Mapping Nat}
    {entries : List (Member × Projected)} {entry : Member × Projected} (h : entry ∈ entries) :
    ∃ column ∈ (freezeFrom fallback columns bindings entries).1,
      column.expression.same entry.2 = true := by
  induction entries generalizing columns bindings with
  | nil => simp at h
  | cons first rest ih =>
      rcases List.mem_cons.mp h with rfl | hrest
      · obtain ⟨column, hcolumn, hsame⟩ :=
          exists_getElem?_pushColumn columns entry.2 entry.1.lastName? fallback
        rw [freezeFrom]
        exact ⟨column, (growsTo_freezeFrom fallback _ _ rest).mem (List.mem_of_getElem? hcolumn),
          hsame⟩
      · exact ih hrest

end DocumentQuery
