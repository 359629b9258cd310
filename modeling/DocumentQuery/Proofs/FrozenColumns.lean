import DocumentQuery.Proofs.Freeze
/-!
# What freezing makes of a mapping

Freezing goes through what the positions are bound to, from the first to the
last, and what it has made of a part is told by that part alone (`MadeFrom`):
which columns there are, what each is called, and which column each position
resolves to. The next pair either shares a column that shows the same
(`MadeFrom.shared`) or gets a column of its own at the end (`MadeFrom.added`).
What the columns are called does not depend on the bindings (`NamedFrom`), so it is
told even if a position is bound repeatedly.
-/

namespace DocumentQuery

/-! ## The first of what is the same -/

theorem eraseDupsByLoop_append_singleton {α : Type} (same : α → α → Bool) (items kept : List α)
    (item : α) :
    List.eraseDupsBy.loop same (items ++ [item]) kept =
      if (List.eraseDupsBy.loop same items kept).any (same item) then
        List.eraseDupsBy.loop same items kept
      else List.eraseDupsBy.loop same items kept ++ [item] := by
  induction items generalizing kept with
  | nil =>
      cases hany : kept.any (same item) <;> simp [List.eraseDupsBy.loop, hany]
  | cons first rest ih =>
      cases hany : kept.any (same first) <;> simp [List.eraseDupsBy.loop, hany, ih]

/-- One more item at the end is kept if it is the same as none of those kept. -/
theorem eraseDupsBy_append_singleton {α : Type} (same : α → α → Bool) (items : List α)
    (item : α) :
    (items ++ [item]).eraseDupsBy same =
      if (items.eraseDupsBy same).any (same item) then items.eraseDupsBy same
      else items.eraseDupsBy same ++ [item] :=
  eraseDupsByLoop_append_singleton same items [] item

/-! ## A mapping and its columns -/

/-- What a column is named after: the last step of a position if that is a field,
else the property that the expression reads or the alias that it refers to, else a
default. -/
def aliasBase (fallback : String) (member : Member) (expression : Projected) : String :=
  let shown := match expression with
    | .scalar value => value
    | .object _ access => access
  match member.steps.getLast?, shown with
  | some (.field name), _ => name
  | _, .property _ name _ => name
  | _, .scalarReference aliasName _ => aliasName
  | _, .objectReference _ aliasName => aliasName
  | _, _ => fallback

theorem aliasBase_eq_getD (fallback : String) (member : Member) (expression : Projected) :
    aliasBase fallback member expression =
      (member.lastName? <|> expression.accessName?).getD fallback := by
  unfold aliasBase Member.lastName? Member.last?
  rcases member.steps.getLast? with _ | ⟨name⟩ | place
  · rcases expression with shown | ⟨entityType, shown⟩ <;> cases shown <;> rfl
  · rfl
  · rcases expression with shown | ⟨entityType, shown⟩ <;> cases shown <;> rfl

/-- The columns show what the pairs ask for, and are named after the positions in
them. -/
structure NamedFrom (fallback : String) (entries : List (Member × Projected))
    (columns : List Column) : Prop where
  /-- Some column shows what a position is bound to. -/
  shown : ∀ entry ∈ entries, ∃ column ∈ columns, column.expression.same entry.2 = true
  /-- A column has the first free alias from what the first position that is bound
  to its expression makes of it; free are the aliases that do not collide with
  that of a column before. -/
  aliases : ∀ number column, columns[number]? = some column →
    ∃ member,
      entries.find? (fun entry => entry.2.same column.expression) =
        some (member, column.expression) ∧
      Alias.IsFirstFree ((columns.take number).map (·.aliasName))
        (aliasBase fallback member column.expression) column.aliasName

namespace NamedFrom

variable {fallback : String} {entries : List (Member × Projected)} {columns : List Column}

theorem empty (fallback : String) : NamedFrom fallback [] [] where
  shown := by simp
  aliases := by simp

/-- A further pair for what is shown already changes no name: the first position
that is bound to it stays the first. -/
theorem shared (h : NamedFrom fallback entries columns) {member : Member}
    {expression : Projected} {column : Column} (hcolumn : column ∈ columns)
    (hsame : column.expression.same expression = true) :
    NamedFrom fallback (entries ++ [(member, expression)]) columns where
  shown := by
    intro entry hentry
    rcases List.mem_append.mp hentry with hold | hlast
    · exact h.shown entry hold
    · obtain rfl := List.mem_singleton.mp hlast
      exact ⟨column, hcolumn, hsame⟩
  aliases := by
    intro place found hfound
    obtain ⟨first, hfirst, hfree⟩ := h.aliases place found hfound
    exact ⟨first, by rw [List.find?_append, hfirst, Option.some_or], hfree⟩

/-- What is not shown yet gets a column that is named after the further pair. -/
theorem added (h : NamedFrom fallback entries columns) {member : Member}
    {expression : Projected}
    (hnone : ∀ column ∈ columns, column.expression.same expression = false) :
    NamedFrom fallback (entries ++ [(member, expression)])
      (columns ++ [newColumn columns expression member.lastName? fallback]) where
  shown := by
    intro entry hentry
    rcases List.mem_append.mp hentry with hold | hlast
    · obtain ⟨column, hcolumn, hsame⟩ := h.shown entry hold
      exact ⟨column, List.mem_append_left _ hcolumn, hsame⟩
    · obtain rfl := List.mem_singleton.mp hlast
      exact ⟨_, List.mem_append_right _ List.mem_cons_self, Projected.same_refl expression⟩
  aliases := by
    intro place found hfound
    rcases Nat.lt_or_ge place columns.length with hold | hlast
    · rw [List.getElem?_append_left hold] at hfound
      obtain ⟨first, hfirst, hfree⟩ := h.aliases place found hfound
      refine ⟨first, by rw [List.find?_append, hfirst, Option.some_or], ?_⟩
      rwa [List.take_append_of_le_length (Nat.le_of_lt hold)]
    · obtain ⟨rfl, rfl⟩ : place = columns.length ∧
          found = newColumn columns expression member.lastName? fallback := by
        rw [List.getElem?_append_right hlast, List.getElem?_singleton] at hfound
        split at hfound
        · exact ⟨by omega, (Option.some.inj hfound).symm⟩
        · exact absurd hfound (by simp)
      refine ⟨member, ?_, ?_⟩
      · -- a position bound before to the same would have a column that shows it
        have hbefore : entries.find? (fun entry => entry.2.same expression) = none := by
          rw [List.find?_eq_none]
          intro entry hentry hsame
          obtain ⟨column, hcolumn, hshown⟩ := h.shown entry hentry
          have hshows := Projected.same_trans hshown hsame
          rw [hnone column hcolumn] at hshows
          exact Bool.false_ne_true hshows
        rw [List.find?_append, newColumn, hbefore]
        simp
      · rw [List.take_left, newColumn, aliasBase_eq_getD]
        exact Alias.isFirstFree_fresh _ _

/-- Freezing goes on with the names, also where a position is bound repeatedly. -/
theorem freezeFrom (h : NamedFrom fallback entries columns) (bindings : Mapping Nat)
    (rest : List (Member × Projected)) :
    NamedFrom fallback (entries ++ rest) (freezeFrom fallback columns bindings rest).1 := by
  induction rest generalizing entries columns bindings with
  | nil => simpa [DocumentQuery.freezeFrom] using h
  | cons entry rest ih =>
      rcases entry with ⟨member, expression⟩
      rw [List.append_cons, DocumentQuery.freezeFrom]
      rcases pushColumn_cases columns expression member.lastName? fallback with
        ⟨number, column, hcolumn, hsame, hpushed⟩ | ⟨hnone, hpushed⟩
      · rw [hpushed]
        exact ih (h.shared (List.mem_of_getElem? hcolumn) hsame) _
      · rw [hpushed]
        exact ih (h.added hnone) _

end NamedFrom

/-- The columns and the bindings are those for pairs of a position and what it is
bound to. -/
structure MadeFrom (fallback : String) (entries : List (Member × Projected))
    (columns : List Column) (bindings : Mapping Nat) : Prop where
  /-- The columns show what is bound, in order, each expression once. -/
  expressions :
    columns.map (·.expression) = (entries.map Prod.snd).eraseDupsBy Projected.same
  /-- The bound positions are the same, in the same order. -/
  members : bindings.keys = entries.map Prod.fst
  /-- A position resolves to a column that shows what it was bound to. -/
  resolves : ∀ member expression, (member, expression) ∈ entries →
    ∃ number column, bindings.get? member = some number ∧ columns[number]? = some column ∧
      column.expression.same expression = true
  /-- There is no column that no position resolves to. -/
  covers : ∀ number < columns.length, ∃ member, bindings.get? member = some number
  /-- A column has the first free alias from what the first position that is bound
  to its expression makes of it; free are the aliases that do not collide with
  that of a column before. -/
  aliases : ∀ number column, columns[number]? = some column →
    ∃ member,
      entries.find? (fun entry => entry.2.same column.expression) =
        some (member, column.expression) ∧
      Alias.IsFirstFree ((columns.take number).map (·.aliasName))
        (aliasBase fallback member column.expression) column.aliasName

namespace MadeFrom

variable {fallback : String} {entries : List (Member × Projected)} {columns : List Column}
  {bindings : Mapping Nat}

theorem empty (fallback : String) : MadeFrom fallback [] [] .empty where
  expressions := rfl
  members := rfl
  resolves := by simp
  covers := by simp
  aliases := by simp

theorem named (h : MadeFrom fallback entries columns bindings) :
    NamedFrom fallback entries columns where
  shown := by
    rintro ⟨member, expression⟩ hentry
    obtain ⟨number, column, -, hcolumn, hsame⟩ := h.resolves member expression hentry
    exact ⟨column, List.mem_of_getElem? hcolumn, hsame⟩
  aliases := h.aliases

theorem get?_eq_none (h : MadeFrom fallback entries columns bindings) {member : Member}
    (hnew : member ∉ entries.map Prod.fst) : bindings.get? member = none := by
  rw [OrderedMap.get?_eq_none_iff, h.members]
  exact hnew

theorem get?_insert (h : MadeFrom fallback entries columns bindings) {member other : Member}
    {number place : Nat} (hnew : member ∉ entries.map Prod.fst)
    (hother : bindings.get? other = some place) :
    (bindings.insert member number).2.get? other = some place := by
  have hne : member ≠ other := by
    rintro rfl
    rw [h.get?_eq_none hnew] at hother
    exact absurd hother (by simp)
  rw [OrderedMap.get?_insert, if_neg hne, hother]

theorem keys_insert (h : MadeFrom fallback entries columns bindings) {member : Member}
    {number : Nat} (hnew : member ∉ entries.map Prod.fst) (expression : Projected) :
    (bindings.insert member number).2.keys =
      (entries ++ [(member, expression)]).map Prod.fst := by
  rw [OrderedMap.keys_insert, h.members, if_neg hnew]
  simp

theorem expressions_append (h : MadeFrom fallback entries columns bindings) (member : Member)
    (expression : Projected) :
    ((entries ++ [(member, expression)]).map Prod.snd).eraseDupsBy Projected.same =
      if columns.any (·.expression.same expression) then columns.map (·.expression)
      else columns.map (·.expression) ++ [expression] := by
  rw [List.map_append, List.map_singleton, eraseDupsBy_append_singleton, ← h.expressions,
    List.any_map]
  simp only [Function.comp_def, Projected.same_comm expression]

theorem shared (h : MadeFrom fallback entries columns bindings) {member : Member}
    {expression : Projected} {number : Nat} {column : Column}
    (hnew : member ∉ entries.map Prod.fst) (hcolumn : columns[number]? = some column)
    (hsame : column.expression.same expression = true) :
    MadeFrom fallback (entries ++ [(member, expression)]) columns
      (bindings.insert member number).2 where
  expressions := by
    have hshown : columns.any (·.expression.same expression) = true :=
      List.any_eq_true.mpr ⟨column, List.mem_of_getElem? hcolumn, hsame⟩
    rw [h.expressions_append, if_pos hshown]
  members := h.keys_insert hnew expression
  resolves := by
    intro other shown hentry
    rcases List.mem_append.mp hentry with hold | hlast
    · obtain ⟨place, found, hplace, hfound⟩ := h.resolves other shown hold
      exact ⟨place, found, h.get?_insert hnew hplace, hfound⟩
    · obtain ⟨rfl, rfl⟩ := Prod.mk.inj (List.mem_singleton.mp hlast)
      exact ⟨number, column, by rw [OrderedMap.get?_insert, if_pos rfl], hcolumn, hsame⟩
  covers := by
    intro place hplace
    obtain ⟨other, hother⟩ := h.covers place hplace
    exact ⟨other, h.get?_insert hnew hother⟩
  aliases := (h.named.shared (List.mem_of_getElem? hcolumn) hsame).aliases

theorem added (h : MadeFrom fallback entries columns bindings) {member : Member}
    {expression : Projected} (hnew : member ∉ entries.map Prod.fst)
    (hnone : ∀ column ∈ columns, column.expression.same expression = false) :
    MadeFrom fallback (entries ++ [(member, expression)])
      (columns ++ [newColumn columns expression member.lastName? fallback])
      (bindings.insert member columns.length).2 where
  expressions := by
    have hshown : ¬ columns.any (·.expression.same expression) = true := by
      rw [List.any_eq_true]
      rintro ⟨column, hcolumn, hsame⟩
      rw [hnone column hcolumn] at hsame
      exact Bool.false_ne_true hsame
    rw [h.expressions_append, if_neg hshown, List.map_append]
    rfl
  members := h.keys_insert hnew expression
  resolves := by
    intro other shown hentry
    rcases List.mem_append.mp hentry with hold | hlast
    · obtain ⟨place, found, hplace, hfound, hsame⟩ := h.resolves other shown hold
      refine ⟨place, found, h.get?_insert hnew hplace, ?_, hsame⟩
      rw [List.getElem?_append_left (List.getElem?_eq_some_iff.mp hfound).1, hfound]
    · obtain ⟨rfl, rfl⟩ := Prod.mk.inj (List.mem_singleton.mp hlast)
      refine ⟨columns.length, newColumn columns shown other.lastName? fallback, ?_, ?_, ?_⟩
      · rw [OrderedMap.get?_insert, if_pos rfl]
      · simp
      · exact Projected.same_refl shown
  covers := by
    intro place hplace
    rw [List.length_append, List.length_singleton] at hplace
    rcases Nat.lt_succ_iff_lt_or_eq.mp hplace with hold | rfl
    · obtain ⟨other, hother⟩ := h.covers place hold
      exact ⟨other, h.get?_insert hnew hother⟩
    · exact ⟨member, by rw [OrderedMap.get?_insert, if_pos rfl]⟩
  aliases := (h.named.added hnone).aliases

theorem freezeFrom (h : MadeFrom fallback entries columns bindings)
    {rest : List (Member × Projected)} (hnodup : ((entries ++ rest).map Prod.fst).Nodup) :
    MadeFrom fallback (entries ++ rest) (freezeFrom fallback columns bindings rest).1
      (freezeFrom fallback columns bindings rest).2 := by
  induction rest generalizing entries columns bindings with
  | nil => simpa [DocumentQuery.freezeFrom] using h
  | cons entry rest ih =>
      rcases entry with ⟨member, expression⟩
      have hnew : member ∉ entries.map Prod.fst := by
        rw [List.map_append] at hnodup
        intro hmem
        exact List.disjoint_of_nodup_append hnodup hmem (by simp)
      rw [List.append_cons] at hnodup ⊢
      rw [DocumentQuery.freezeFrom]
      rcases pushColumn_cases columns expression member.lastName? fallback with
        ⟨number, column, hcolumn, hsame, hpushed⟩ | ⟨hnone, hpushed⟩
      · rw [hpushed]
        exact ih (h.shared hnew hcolumn hsame) hnodup
      · rw [hpushed]
        exact ih (h.added hnew hnone) hnodup

end MadeFrom

namespace Projection

/-- Freezing makes exactly the columns that the mapping asks for, binds exactly
the positions that were bound, and is not repeated by freezing again. -/
theorem freeze_pending (fallback : String) {mapping : Mapping Projected}
    (h : mapping.keys.Nodup) :
    ∃ columns bindings,
      (pending mapping).freeze fallback = .frozen columns bindings ∧
      MadeFrom fallback mapping.entries columns bindings ∧
      (∀ member, (pending mapping).binding? member = none →
        (frozen columns bindings).binding? member = none) ∧
      ∀ other, ((pending mapping).freeze fallback).freeze other =
        (pending mapping).freeze fallback := by
  have hentries : (([] ++ mapping.entries).map Prod.fst).Nodup := h
  have hmade := (MadeFrom.empty fallback).freezeFrom hentries
  rw [List.nil_append] at hmade
  refine ⟨_, _, rfl, hmade, fun member hunbound => ?_,
    fun other => freeze_freeze fallback other _⟩
  have hnew : member ∉ mapping.keys := by
    simpa [binding?, OrderedMap.get?_eq_none_iff] using hunbound
  rw [binding?, hmade.get?_eq_none hnew, Option.map_none]

/-- Two positions share the column of a name, which is called like the field that
the first one ends with. The others end with no field and are called like the
property that is read, like the alias that is referred to, with a number because
it differs from a name before by case alone, and by default. -/
theorem freeze_pending_shared :
    let name := Projected.scalar (.property (.objectReference "Blog" "c") "Name" .string)
    let url := Projected.scalar (.property (.objectReference "Blog" "c") "Url" .string)
    let title := Projected.scalar (.scalarReference "title" .string)
    let one := Projected.scalar (.constant (.number (.integer 1)) .number)
    let mapping : Mapping Projected := ⟨[(⟨[.field "Title"]⟩, name),
      (⟨[.field "Links", .index 0]⟩, url), (⟨[.field "Name"]⟩, name), (⟨[.index 1]⟩, title),
      (.root, one)]⟩
    mapping.keys.Nodup ∧ ∃ columns bindings,
      (pending mapping).freeze "c" = .frozen columns bindings ∧
        columns.map (·.expression) = [name, url, title, one] ∧
        columns.map (·.aliasName) = ["Title", "Url", "title0", "c"] ∧
        bindings.entries.map Prod.snd = [0, 1, 0, 2, 3] := by
  intro name url title one mapping
  have hnodup : mapping.keys.Nodup := by
    show [(⟨[.field "Title"]⟩ : Member), ⟨[.field "Links", .index 0]⟩, ⟨[.field "Name"]⟩,
      ⟨[.index 1]⟩, .root].Nodup
    decide
  obtain ⟨columns, bindings, hfrozen, hmade, -, -⟩ := freeze_pending "c" hnodup
  have hcomputed : (pending mapping).freeze "c" =
      .frozen (freezeFrom "c" [] .empty mapping.entries).1
        (freezeFrom "c" [] .empty mapping.entries).2 := rfl
  refine ⟨hnodup, columns, bindings, hfrozen, ?_, ?_, ?_⟩
  · rw [hmade.expressions]
    simp [mapping, name, url, title, one, List.eraseDupsBy_cons, Projected.same, Expr.same]
  · rw [← (Projection.frozen.inj (hcomputed.symm.trans hfrozen)).1]
    decide +kernel
  · rw [← (Projection.frozen.inj (hcomputed.symm.trans hfrozen)).2]
    decide +kernel

end Projection

end DocumentQuery
