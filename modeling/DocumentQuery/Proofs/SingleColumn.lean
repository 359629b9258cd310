import DocumentQuery.Proofs.Runs
import Mathlib.Data.List.Induction
import Mathlib.Tactic.ByContra
import Mathlib.Tactic.Push
/-!
# The column of a single value

The text of a block that selects a single value shows its first column and no
other, so such a block should have exactly one column once it is frozen
(`SingleColumn`). Every call keeps to this but `selectingValue`, which demands a
single value also of a block whose columns are settled, and does not count them.
After that the columns stay as they are, except that a block without columns can
still get its one. `not_singleColumn_run_iff` says which runs end in a block
that has not its one column.
-/

namespace DocumentQuery

namespace Call

theorem selectsValue_of_keepsShape {call : Call} (h : call.keepsShape = true) :
    call.selectsValue = false := by
  cases call <;> simp [keepsShape, selectsValue] at h ⊢

end Call

namespace Block

variable {block : Block} {columns : List Column} {bindings : Mapping Nat}
  {mapping : Mapping Projected}

/-- Once the block is frozen, a single value has exactly one column. -/
def SingleColumn (block : Block) : Prop :=
  block.singleValue = true → block.projection.isFrozen = true →
    block.projection.columns.length = 1

theorem singleColumn_of_pending (h : block.projection = .pending mapping) :
    block.SingleColumn := by
  intro _ hfrozen
  simp [h, Projection.isFrozen] at hfrozen

theorem singleColumn_of_frozen (h : block.projection = .frozen columns bindings)
    (hlength : columns.length = 1) : block.SingleColumn := by
  intro _ _
  rw [h]
  exact hlength

theorem Initial.singleColumn (h : block.Initial) : block.SingleColumn := by
  cases h with
  | ofValue expression => exact singleColumn_of_frozen rfl rfl
  | forEntity config entityType => exact singleColumn_of_pending rfl
  | forPointRead config entityType pointRead => exact singleColumn_of_pending rfl
  | ofText config entityType text => exact singleColumn_of_pending rfl
  | projecting projected => exact singleColumn_of_pending rfl
  | overCollection collection aliasName projected => exact singleColumn_of_pending rfl

/-! ## The text -/

theorem render_of_singleValue (hsingle : block.singleValue = true) (width : Nat) (first : Column)
    (others : List Column) (bindings : Mapping Nat) :
    (block.withProjection (.frozen (first :: others) bindings)).render width =
      (block.withProjection (.frozen [first] bindings)).render width := by
  cases block
  cases first
  cases hsingle
  simp [withProjection, render, Projection.render, renderColumns, selectText]

/-! ## One call -/

theorem singleValue_perform (block : Block) (call : Call) :
    (block.perform call).block.singleValue = (block.singleValue || call.selectsValue) := by
  by_cases hshape : call.keepsShape = true
  · rw [(sameShape_perform hshape block).singleValue, Call.selectsValue_of_keepsShape hshape,
      Bool.or_false]
  · rw [Bool.not_eq_true] at hshape
    obtain ⟨sources, projection, hafter⟩ := perform_reshapes hshape block
    rw [hafter, reshaped]

theorem singleColumn_pushTo (h : block.singleValue = true → columns.length ≤ 1)
    {projected : Projected} {aliasName : Option String} :
    (block.pushTo columns bindings projected aliasName).block.SingleColumn := by
  intro hsingle _
  have hbefore : block.singleValue = true := by
    obtain ⟨projection, hpushed⟩ := pushTo_reshapes block columns bindings projected aliasName
    rwa [hpushed] at hsingle
  have hone := h hbefore
  rw [projection_pushTo_of_singleValue hbefore, Projection.columns]
  split
  · rfl
  · rename_i hsome
    have hpositive := List.length_pos_iff.mpr hsome
    omega

/-- A pending block that selects a single value is frozen in a call only with
one column. -/
theorem singleColumn_perform_of_pending (h : block.projection = .pending mapping) (call : Call) :
    (block.perform call).block.SingleColumn := by
  rcases perform_pending h call with ⟨after, hafter⟩ | ⟨columns, bindings, hsettle, hafter⟩ |
    ⟨columns, bindings, projected, aliasName, hcolumns, hafter⟩
  · exact singleColumn_of_pending hafter
  · rw [hafter]
    intro hsingle _
    exact ((settle_pending_eq_ok_iff h columns bindings).mp hsettle).2 hsingle
  · rw [hafter]
    refine singleColumn_pushTo fun hsingle => ?_
    rcases hcolumns with rfl | hsettle
    · simp
    · have hone := ((settle_pending_eq_ok_iff h columns bindings).mp hsettle).2 hsingle
      exact Nat.le_of_eq hone

theorem frozen_addColumn (h : block.projection = .frozen columns bindings)
    (hsingle : block.singleValue = true) (projected : Projected) (aliasName : Option String) :
    (block.addColumn projected aliasName).block.projection =
      .frozen (if columns = [] then [newColumn [] projected aliasName defaultColumnAlias]
        else columns) bindings := by
  rw [addColumn_frozen h, projection_pushTo_of_singleValue hsingle]

/-- A call keeps to the one column unless it demands a single value of columns
that are settled and not one. -/
theorem SingleColumn.perform (h : block.SingleColumn) {call : Call}
    (hcall : call.selectsValue = true → block.projection.isFrozen = true →
      block.projection.columns.length = 1) :
    (block.perform call).block.SingleColumn := by
  cases hprojection : block.projection with
  | pending mapping => exact singleColumn_perform_of_pending hprojection call
  | frozen columns bindings =>
      intro hsingle _
      rw [singleValue_perform, Bool.or_eq_true] at hsingle
      have hone : columns.length = 1 := by
        rcases hsingle with hbefore | hnow
        · have hcolumns := h hbefore (by rw [hprojection]; rfl)
          rwa [hprojection] at hcolumns
        · have hcolumns := hcall hnow (by rw [hprojection]; rfl)
          rwa [hprojection] at hcolumns
      have hsome : columns ≠ [] := List.length_pos_iff.mp (by omega)
      by_cases hadds : call.addsColumn = true
      · cases call with
        | addColumn projected aliasName =>
            have hbefore : block.singleValue = true := by
              simpa [Call.selectsValue] using hsingle
            rw [Block.perform, Outcome.block_map, frozen_addColumn hprojection hbefore,
              if_neg hsome]
            exact hone
        | _ => simp [Call.addsColumn] at hadds
      · rw [Bool.not_eq_true] at hadds
        rw [perform_frozen hprojection hadds]
        exact hone

/-! ## Runs -/

/-- The columns of a frozen block that selects a single value stay, except that
one without columns gets one when it is asked for. -/
theorem frozen_run (hsingle : block.singleValue = true)
    (h : block.projection = .frozen columns bindings) {calls : List Call}
    (hcalls : columns = [] → ∀ call ∈ calls, call.addsColumn = false) :
    (block.run calls).singleValue = true ∧
      ∃ bound, (block.run calls).projection = .frozen columns bound := by
  induction calls generalizing block bindings with
  | nil => exact ⟨hsingle, bindings, h⟩
  | cons call rest ih =>
      have hafter : (block.perform call).block.singleValue = true := by
        rw [singleValue_perform, hsingle, Bool.true_or]
      have hrest : columns = [] → ∀ later ∈ rest, later.addsColumn = false := by
        intro hempty later hlater
        exact hcalls hempty later (List.mem_cons_of_mem call hlater)
      rw [run_cons]
      by_cases hadds : call.addsColumn = true
      · have hsome : columns ≠ [] := by
          intro hempty
          rw [hcalls hempty call List.mem_cons_self] at hadds
          exact Bool.false_ne_true hadds
        cases call with
        | addColumn projected aliasName =>
            have hkept : (block.perform (.addColumn projected aliasName)).block.projection =
                .frozen columns bindings := by
              rw [perform, Outcome.block_map, frozen_addColumn h hsingle, if_neg hsome]
            exact ih hafter hkept hrest
        | _ => simp [Call.addsColumn] at hadds
      · rw [Bool.not_eq_true] at hadds
        exact ih hafter (perform_frozen h hadds) hrest

variable {start : Block} {calls earlier later : List Call}

theorem frozen_run_selectingValue (h : (start.run earlier).projection = .frozen columns bindings)
    (hlater : columns = [] → ∀ call ∈ later, call.addsColumn = false) :
    (start.run (earlier ++ .selectingValue :: later)).singleValue = true ∧
      ∃ bound, (start.run (earlier ++ .selectingValue :: later)).projection =
        .frozen columns bound := by
  rw [run_append, run_cons]
  have hsingle : (start.run earlier).selectingValue.singleValue = true := rfl
  exact frozen_run hsingle h hlater

/-- A run ends in a block that selects a single value and has settled on none or
on several columns exactly if the single value was demanded when there were none
or several, and no column was asked for afterwards where there were none. -/
theorem not_singleColumn_run_iff (h : start.Initial) (calls : List Call) :
    ¬ (start.run calls).SingleColumn ↔
      ∃ earlier later columns bindings, calls = earlier ++ .selectingValue :: later ∧
        (start.run earlier).projection = .frozen columns bindings ∧ columns.length ≠ 1 ∧
        (columns = [] → ∀ call ∈ later, call.addsColumn = false) := by
  constructor
  · induction calls using List.reverseRecOn with
    | nil => exact fun hlost => absurd h.singleColumn hlost
    | append_singleton calls call ih =>
        intro hlost
        rw [run_append_singleton] at hlost
        by_cases hkept : (start.run calls).SingleColumn
        · -- the last call demanded a single value of settled columns
          by_cases hfit : call.selectsValue = true →
              (start.run calls).projection.isFrozen = true →
                (start.run calls).projection.columns.length = 1
          · exact absurd (hkept.perform hfit) hlost
          · push Not at hfit
            obtain ⟨hselects, hfrozen, hlength⟩ := hfit
            cases call with
            | selectingValue =>
                cases hprojection : (start.run calls).projection with
                | pending mapping => simp [hprojection, Projection.isFrozen] at hfrozen
                | frozen columns bindings =>
                    rw [hprojection] at hlength
                    exact ⟨calls, [], columns, bindings, rfl, hprojection, hlength, by simp⟩
            | _ => simp [Call.selectsValue] at hselects
        · obtain ⟨earlier, later, columns, bindings, rfl, hfrozen, hlength, hlater⟩ := ih hkept
          refine ⟨earlier, later ++ [call], columns, bindings, by simp, hfrozen, hlength, ?_⟩
          intro hempty
          rw [List.forall_mem_append, List.forall_mem_singleton]
          refine ⟨hlater hempty, ?_⟩
          -- a column would have made up for it
          by_contra hadds
          rw [Bool.not_eq_false] at hadds
          obtain ⟨hsingle, bound, hafter⟩ := frozen_run_selectingValue hfrozen hlater
          cases call with
          | addColumn projected aliasName =>
              apply hlost
              have hone := frozen_addColumn hafter hsingle projected aliasName
              rw [if_pos hempty] at hone
              exact singleColumn_of_frozen hone rfl
          | _ => simp [Call.addsColumn] at hadds
  · rintro ⟨earlier, later, columns, bindings, rfl, hfrozen, hlength, hlater⟩ hone
    obtain ⟨hsingle, bound, hafter⟩ := frozen_run_selectingValue hfrozen hlater
    have hcolumns := hone hsingle (by rw [hafter]; rfl)
    rw [hafter] at hcolumns
    exact hlength hcolumns

/-- A single value is demanded of a block that has settled on no column. -/
theorem not_singleColumn_run_of_no_column :
    let start := forEntity .default "Blog"
    start.Initial ∧
      ¬ (start.run [.clearMapping, .applyProjection, .selectingValue]).SingleColumn := by
  intro start
  have hstart : start.Initial := .forEntity .default "Blog"
  refine ⟨hstart, (not_singleColumn_run_iff hstart _).mpr ?_⟩
  exact ⟨[.clearMapping, .applyProjection], [], [], .empty, rfl, rfl, by simp, by simp⟩

/-- A blog and its name are settled on before a single value is demanded, and
the text shows the blog alone. -/
theorem second_column_dropped :
    let name := Projected.scalar (.property (.objectReference "Blog" "c") "Name" .string)
    let block := (forEntity .default "Blog").run
      [.bindMember ⟨[.field "Name"]⟩ name, .applyProjection, .selectingValue]
    block.singleValue = true ∧ ∃ first second bindings,
      block.projection = .frozen [first, second] bindings ∧
        ∀ width, block.render width =
          (block.withProjection (.frozen [first] bindings)).render width := by
  intro name block
  let entries := [(Member.root, Projected.object "Blog" (.objectReference "Blog" "c")),
    (⟨[.field "Name"]⟩, name)]
  have hfrozen : ∃ first second bindings,
      freezeFrom defaultColumnAlias [] .empty entries = ([first, second], bindings) := by
    simp [entries, name, freezeFrom, pushColumn, columnOf?, newColumn, Projected.same]
  obtain ⟨first, second, bindings, hfrozen⟩ := hfrozen
  have hsettle : settle ((forEntity .default "Blog").withProjection (.pending ⟨entries⟩)) =
      .ok ([first, second], bindings) := by
    rw [settle_pending rfl, if_neg (fun hvalue => Bool.false_ne_true hvalue.1), ← hfrozen]
  have hblock : block = (applyProjection ((forEntity .default "Blog").withProjection
      (.pending ⟨entries⟩))).block.selectingValue := rfl
  have hprojection : block.projection = .frozen [first, second] bindings := by
    rw [hblock, applyProjection_of_settle hsettle]
    rfl
  have hsingle : block.singleValue = true := by
    rw [hblock]
    rfl
  refine ⟨hsingle, first, second, bindings, hprojection, fun width => ?_⟩
  rw [← render_of_singleValue hsingle width first [second] bindings,
    withProjection_self hprojection]

end Block

end DocumentQuery
