import DocumentQuery.Proofs.Runs
import DocumentQuery.Proofs.Sameness
import Mathlib.Data.List.Induction
import Mathlib.Data.List.TakeWhile
/-!
# Predicate, sort keys and paging

A run of calls leaves a predicate, sort keys, an offset and a limit, and each of
them can be told from the calls alone (`clausesOfRun`): the predicate is the
conjunction of all conditions, the limit is the first that was asked for, the
offset is the first if no limit was asked for before, and the sort keys come
from the calls that sorted and were not refused. What one call does to these
clauses is said in `ClauseStep`, and every run lemma follows from it.
-/

namespace DocumentQuery

/-- All conditions of a list, the first two first; none if the list is empty. -/
def Expr.conjunction : List Expr → Option Expr
  | [] => none
  | condition :: rest =>
    some (rest.foldl (fun left right => .binary .and left right .boolean) condition)

@[simp] theorem Expr.conjunction_toList (condition : Option Expr) :
    conjunction condition.toList = condition := by
  cases condition <;> rfl

/-- A further condition is joined to what the conditions before it came to. -/
theorem Expr.conjunction_append_toList (conditions : List Expr) (further : Option Expr) :
    conjunction (conditions ++ further.toList) =
      conjunction ((conjunction conditions).toList ++ further.toList) := by
  cases further with
  | none => simp
  | some condition =>
      cases conditions with
      | nil => rfl
      | cons first rest => simp [conjunction]

/-- Both conditions are joined by `AND`, which gives a boolean whatever they give. -/
theorem Expr.both_eq (left right : Expr) : both left right = .binary .and left right .boolean :=
  rfl

namespace Call

@[simp] def limit? : Call → Option Expr
  | .applyLimit limit => some limit
  | _ => none

@[simp] def offset? : Call → Option Expr
  | .applyOffset offset => some offset
  | _ => none

/-- The condition that a call demands; the constant `true` is none. -/
def condition? : Call → Option Expr
  | .filter (.constant (.bool true) _) => none
  | .filter condition => some condition
  | _ => none

/-- Whether a call drops rows that occur twice, limits the rows or leaves some of
them out. -/
@[simp] def restricts : Call → Bool
  | .applyDistinct => true
  | .applyLimit _ => true
  | .applyOffset _ => true
  | _ => false

def sorts : Call → Bool
  | .applyOrdering _ => true
  | .appendOrdering _ => true
  | .reverseOrderings => true
  | _ => false

/-- What sort keys become in a call that succeeds. -/
@[simp] def sortKeys (keys : List SortKey) : Call → List SortKey
  | .applyOrdering key => [key]
  | .appendOrdering key =>
    if keys.any (key.expression.same ·.expression) then keys else keys ++ [key]
  | .reverseOrderings => keys.map fun key => ⟨key.expression, !key.ascending⟩
  | .clearOrdering => []
  | _ => keys

theorem condition?_filter (condition : Expr) :
    (filter condition).condition? = if condition.isTrue then none else some condition := by
  unfold condition? Expr.isTrue
  split <;> simp_all

end Call

/-- Two sort keys are for expressions that are not the same. -/
def SortKey.Differ (first second : SortKey) : Prop :=
  first.expression.same second.expression = false

theorem SortKey.Differ.symm {first second : SortKey} (h : first.Differ second) :
    second.Differ first := by
  rw [Differ, Expr.same_comm]
  exact h

namespace Call

theorem differ_sortKeys {keys : List SortKey} (h : keys.Pairwise SortKey.Differ) (call : Call) :
    (call.sortKeys keys).Pairwise SortKey.Differ := by
  cases call with
  | applyOrdering key => exact List.pairwise_singleton _ key
  | appendOrdering key =>
      rw [sortKeys]
      split
      · exact h
      · rename_i hfresh
        rw [List.pairwise_append]
        refine ⟨h, List.pairwise_singleton _ key, ?_⟩
        intro earlier hmem later hlater
        rw [List.mem_singleton.mp hlater]
        apply SortKey.Differ.symm
        rw [Bool.not_eq_true, List.any_eq_false] at hfresh
        exact Bool.eq_false_iff.mpr (hfresh earlier hmem)
  | reverseOrderings => exact List.pairwise_map.mpr h
  | clearOrdering => exact List.Pairwise.nil
  | _ => exact h

/-- Sort keys that calls lead to are all for different expressions. -/
theorem differ_foldl_sortKeys (calls : List Call) :
    (calls.foldl sortKeys []).Pairwise SortKey.Differ := by
  induction calls using List.reverseRecOn with
  | nil => exact List.Pairwise.nil
  | append_singleton calls call ih =>
      rw [List.foldl_append]
      exact differ_sortKeys ih call

end Call

namespace Block

variable {block : Block}

/-- Whether sort keys can no longer be set. -/
def sortingClosed (block : Block) : Bool :=
  block.distinct || block.isPaged

/-! ## Which calls succeed -/

theorem accepts_applyLimit (block : Block) (limit : Expr) :
    block.accepts (.applyLimit limit) = block.limit.isNone := by
  rw [accepts, perform, applyLimit]
  cases block.limit <;> rfl

theorem accepts_applyOffset (block : Block) (offset : Expr) :
    block.accepts (.applyOffset offset) = (block.limit.isNone && block.offset.isNone) := by
  rw [accepts, perform, applyOffset]
  cases block.limit <;> cases block.offset <;> rfl

def withOrderings (block : Block) (keys : List SortKey) : Block :=
  { block with orderings := keys }

theorem withOrderings_self (block : Block) : block.withOrderings block.orderings = block := by
  cases block
  rfl

/-- A call that sorts is refused once rows are restricted, and else changes the
sort keys alone. -/
theorem perform_of_sorts {call : Call} (h : call.sorts = true) (block : Block) :
    block.accepts call = !block.sortingClosed ∧
      (block.perform call).block =
        if block.sortingClosed then block
        else block.withOrderings (call.sortKeys block.orderings) := by
  cases call with
  | applyOrdering key =>
      rw [accepts, perform, applyOrdering, ← sortingClosed]
      cases block.sortingClosed <;> exact ⟨rfl, rfl⟩
  | appendOrdering key =>
      rw [accepts, perform, appendOrdering, ← sortingClosed, Call.sortKeys]
      cases block.sortingClosed
      · rw [Expr.occursIn, List.any_map, Function.comp_def]
        by_cases hoccurs : block.orderings.any (key.expression.same ·.expression) = true
        · rw [if_pos hoccurs, if_pos hoccurs, withOrderings_self]
          exact ⟨rfl, rfl⟩
        · rw [if_neg hoccurs, if_neg hoccurs]
          exact ⟨rfl, rfl⟩
      · exact ⟨rfl, rfl⟩
  | reverseOrderings =>
      rw [accepts, perform, reverseOrderings, sortingClosed]
      by_cases hpaged : block.isPaged = true
      · rw [if_pos hpaged, hpaged, Bool.or_true]
        exact ⟨rfl, rfl⟩
      · rw [Bool.not_eq_true] at hpaged
        by_cases hdistinct : block.distinct = true
        · simp [hpaged, hdistinct, reject, refuse, Outcome.map, Except.map, Except.isOk,
            Except.toBool]
        · simp [hpaged, hdistinct, Outcome.map, Except.map, Except.isOk, Except.toBool,
            withOrderings, SortKey.reverse]
  | _ => simp [Call.sorts] at h

/-! ## One call -/

/-- What a call does to the clauses that say which rows are put out and in which
order. -/
structure ClauseStep (before : Block) (call : Call) (after : Block) : Prop where
  predicate : after.predicate =
    Expr.conjunction (before.predicate.toList ++ call.condition?.toList)
  limit : after.limit = before.limit.or call.limit?
  offset : after.offset =
    before.offset.or (if before.limit.isSome then none else call.offset?)
  closed : after.sortingClosed =
    (before.sortingClosed || (before.accepts call && call.restricts))
  orderings : after.orderings =
    if before.accepts call then call.sortKeys before.orderings else before.orderings

theorem clauseStep_of_sorts {call : Call} (h : call.sorts = true) (block : Block) :
    ClauseStep block call (block.perform call).block := by
  obtain ⟨haccepts, hafter⟩ := perform_of_sorts h block
  -- it asks for nothing but sort keys
  have hnone : call.condition? = none ∧ call.limit? = none ∧ call.offset? = none ∧
      call.restricts = false := by
    cases call <;> first | exact ⟨rfl, rfl, rfl, rfl⟩ | simp [Call.sorts] at h
  obtain ⟨hcondition, hlimit, hoffset, hrestricts⟩ := hnone
  rw [hafter]
  constructor
  · rw [hcondition]
    split <;> simp [withOrderings]
  · rw [hlimit]
    split <;> simp [withOrderings]
  · rw [hoffset]
    split <;> simp [withOrderings]
  · rw [hrestricts]
    split <;> simp [withOrderings, sortingClosed, isPaged]
  · rw [haccepts]
    cases block.sortingClosed <;> rfl

theorem clauseStep_filter (block : Block) (condition : Expr) :
    ClauseStep block (.filter condition) (block.filter condition) := by
  rw [filter]
  have hcondition := Call.condition?_filter condition
  by_cases htrue : condition.isTrue = true
  · rw [if_pos htrue] at hcondition ⊢
    constructor <;> simp [hcondition]
  · rw [if_neg htrue] at hcondition ⊢
    split
    · rename_i hpredicate
      constructor <;> simp [hcondition, hpredicate, sortingClosed, isPaged, Expr.conjunction]
    · rename_i predicate hpredicate
      constructor <;> simp [hcondition, hpredicate, sortingClosed, isPaged, Expr.conjunction,
        Expr.both_eq]

theorem clauseStep_applyLimit (block : Block) (limit : Expr) :
    ClauseStep block (.applyLimit limit) (block.applyLimit limit).block := by
  rw [applyLimit]
  cases hlimit : block.limit with
  | none =>
      constructor <;>
        simp [Call.condition?, accepts_applyLimit, hlimit, sortingClosed, isPaged]
  | some first =>
      constructor <;> simp [Call.condition?, accepts_applyLimit, hlimit, reject, refuse]

theorem clauseStep_applyOffset (block : Block) (offset : Expr) :
    ClauseStep block (.applyOffset offset) (block.applyOffset offset).block := by
  rw [applyOffset]
  cases hlimit : block.limit with
  | some limit =>
      constructor <;> simp [Call.condition?, accepts_applyOffset, hlimit, reject, refuse]
  | none =>
      cases hoffset : block.offset with
      | none =>
          constructor <;>
            simp [Call.condition?, accepts_applyOffset, hlimit, hoffset, sortingClosed, isPaged]
      | some first =>
          constructor <;>
            simp [Call.condition?, accepts_applyOffset, hlimit, hoffset, reject, refuse]

theorem clauseStep_of_reshapes {call : Call} (h : call.keepsShape = false) (block : Block) :
    ClauseStep block call (block.perform call).block := by
  obtain ⟨sources, projection, hafter⟩ := perform_reshapes h block
  have hnone : call.condition? = none ∧ call.limit? = none ∧ call.offset? = none ∧
      call.restricts = false ∧ call.sortKeys block.orderings = block.orderings := by
    cases call <;> first | exact ⟨rfl, rfl, rfl, rfl, rfl⟩ | simp [Call.keepsShape] at h
  obtain ⟨hcondition, hlimit, hoffset, hrestricts, hkeys⟩ := hnone
  rw [hafter]
  constructor
  · rw [hcondition]
    simp [reshaped]
  · rw [hlimit]
    simp [reshaped]
  · rw [hoffset]
    simp [reshaped]
  · rw [hrestricts]
    simp [reshaped, sortingClosed, isPaged]
  · rw [hkeys]
    simp [reshaped]

theorem clauseStep_perform (block : Block) (call : Call) :
    ClauseStep block call (block.perform call).block := by
  by_cases hshape : call.keepsShape = true
  · cases call with
    | filter condition => exact clauseStep_filter block condition
    | applyDistinct =>
        have haccepted : block.accepts .applyDistinct = true := rfl
        rw [perform, Outcome.done, applyDistinct]
        constructor <;> simp [Call.condition?, haccepted, sortingClosed]
    | applyLimit limit => exact clauseStep_applyLimit block limit
    | applyOffset offset => exact clauseStep_applyOffset block offset
    | applyOrdering key => exact clauseStep_of_sorts rfl block
    | appendOrdering key => exact clauseStep_of_sorts rfl block
    | reverseOrderings => exact clauseStep_of_sorts rfl block
    | clearOrdering =>
        have haccepted : block.accepts .clearOrdering = true := rfl
        rw [perform, Outcome.done, clearOrdering]
        constructor <;> simp [Call.condition?, haccepted, sortingClosed, isPaged]
    | addKeyBinding property value =>
        rw [perform, Outcome.done, addKeyBinding]
        constructor <;> simp [Call.condition?, sortingClosed, isPaged]
    | _ => simp [Call.keepsShape] at hshape
  · rw [Bool.not_eq_true] at hshape
    exact clauseStep_of_reshapes hshape block

/-! ## Runs -/

/-- A block puts out all rows of its sources, in the order in which they come. -/
structure AllRows (block : Block) : Prop where
  predicate : block.predicate = none
  orderings : block.orderings = []
  limit : block.limit = none
  offset : block.offset = none
  distinct : block.distinct = false

theorem Initial.allRows (h : block.Initial) : block.AllRows := by
  cases h <;> constructor <;> rfl

section Run

variable {start : Block} (h : start.AllRows) (calls : List Call)

include h

theorem limit_run : (start.run calls).limit = calls.findSome? Call.limit? := by
  induction calls using List.reverseRecOn with
  | nil => exact h.limit
  | append_singleton calls call ih =>
      rw [run_append_singleton, (clauseStep_perform _ call).limit, ih, List.findSome?_append]
      simp only [List.findSome?_cons, List.findSome?_nil]
      cases call.limit? <;> rfl

/-- An offset counts if no limit was given before it. -/
theorem offset_run :
    (start.run calls).offset =
      (calls.takeWhile (·.limit?.isNone)).findSome? Call.offset? := by
  induction calls using List.reverseRecOn with
  | nil => exact h.offset
  | append_singleton calls call ih =>
      rw [run_append_singleton, (clauseStep_perform _ call).offset, ih, limit_run h calls]
      cases hgiven : calls.findSome? Call.limit? with
      | none =>
          have hopen : ∀ earlier ∈ calls, earlier.limit?.isNone = true := by
            intro earlier hmem
            rw [List.findSome?_eq_none_iff.mp hgiven earlier hmem]
            rfl
          have hlast : ([call].takeWhile (·.limit?.isNone)).findSome? Call.offset? =
              call.offset? := by
            cases call <;> rfl
          rw [List.takeWhile_append_of_pos hopen, List.takeWhile_eq_self_iff.mpr hopen,
            List.findSome?_append, hlast]
          rfl
      | some limit =>
          -- the calls that count end before the limit
          obtain ⟨first, hmem, hfirst⟩ := List.exists_of_findSome?_eq_some hgiven
          have hclosed : (calls.takeWhile (·.limit?.isNone)).length ≠ calls.length := by
            intro hlength
            have hwhole := (List.takeWhile_prefix _).eq_of_length hlength
            have hnone := List.takeWhile_eq_self_iff.mp hwhole first hmem
            rw [hfirst] at hnone
            exact Bool.false_ne_true hnone
          rw [List.takeWhile_append, if_neg hclosed, Option.isSome_some, if_pos rfl,
            Option.or_none]

/-- The next offset is refused as soon as a call asked for a limit or an offset. -/
theorem isNone_paging_run :
    ((start.run calls).limit.isNone && (start.run calls).offset.isNone) = true ↔
      ∀ call ∈ calls, call.limit? = none ∧ call.offset? = none := by
  rw [Bool.and_eq_true, Option.isNone_iff_eq_none, Option.isNone_iff_eq_none, limit_run h,
    offset_run h, List.findSome?_eq_none_iff]
  constructor
  · rintro ⟨hlimit, hoffset⟩ call hmem
    have hopen : ∀ earlier ∈ calls, earlier.limit?.isNone = true := by
      intro earlier hearlier
      rw [hlimit earlier hearlier]
      rfl
    rw [List.takeWhile_eq_self_iff.mpr hopen, List.findSome?_eq_none_iff] at hoffset
    exact ⟨hlimit call hmem, hoffset call hmem⟩
  · intro hnone
    refine ⟨fun call hmem => (hnone call hmem).1, ?_⟩
    rw [List.findSome?_eq_none_iff]
    intro call hmem
    exact (hnone call ((List.takeWhile_sublist _).subset hmem)).2

theorem predicate_run :
    (start.run calls).predicate = Expr.conjunction (calls.filterMap Call.condition?) := by
  induction calls using List.reverseRecOn with
  | nil => exact h.predicate
  | append_singleton calls call ih =>
      rw [run_append_singleton, (clauseStep_perform _ call).predicate, ih, List.filterMap_append,
        List.filterMap_cons, List.filterMap_nil]
      cases hcondition : call.condition? with
      | none => simp
      | some condition => exact (Expr.conjunction_append_toList _ (some condition)).symm

theorem sortingClosed_run :
    (start.run calls).sortingClosed = (start.accepted calls).any Call.restricts := by
  induction calls using List.reverseRecOn with
  | nil => simp [sortingClosed, isPaged, h.distinct, h.limit, h.offset]
  | append_singleton calls call ih =>
      rw [run_append_singleton, (clauseStep_perform _ call).closed, ih,
        accepted_append_singleton, List.any_append]
      cases (start.run calls).accepts call <;> simp

theorem orderings_run :
    (start.run calls).orderings = (start.accepted calls).foldl Call.sortKeys [] := by
  induction calls using List.reverseRecOn with
  | nil => exact h.orderings
  | append_singleton calls call ih =>
      rw [run_append_singleton, (clauseStep_perform _ call).orderings, ih,
        accepted_append_singleton, List.foldl_append]
      cases (start.run calls).accepts call <;> rfl

end Run

/-- What a run of calls makes of the predicate, the sort keys and the paging, and
which further calls succeed after it. -/
structure ClausesOfRun (start : Block) (calls : List Call) : Prop where
  /-- The first limit counts. -/
  limit : (start.run calls).limit = calls.findSome? Call.limit?
  limit_accepted : ∀ limit, (start.run calls).accepts (.applyLimit limit) = true ↔
    ∀ call ∈ calls, call.limit? = none
  /-- The first offset counts, unless a limit came before it. -/
  offset : (start.run calls).offset =
    (calls.takeWhile (·.limit?.isNone)).findSome? Call.offset?
  offset_accepted : ∀ offset, (start.run calls).accepts (.applyOffset offset) = true ↔
    ∀ call ∈ calls, call.limit? = none ∧ call.offset? = none
  predicate : (start.run calls).predicate =
    Expr.conjunction (calls.filterMap Call.condition?)
  /-- Rows are sorted before any of them are left out. -/
  sorting_accepted : ∀ call, call.sorts = true →
    ((start.run calls).accepts call = true ↔
      ∀ earlier ∈ start.accepted calls, earlier.restricts = false)
  clearing_accepted : (start.run calls).accepts .clearOrdering = true
  orderings : (start.run calls).orderings = (start.accepted calls).foldl Call.sortKeys []
  keys_differ : (start.run calls).orderings.Pairwise SortKey.Differ

/-- A run on a new block keeps to the rules for predicate, sort keys and paging. -/
theorem clausesOfRun {start : Block} (h : start.Initial) (calls : List Call) :
    ClausesOfRun start calls where
  limit := limit_run h.allRows calls
  limit_accepted limit := by
    rw [accepts_applyLimit, Option.isNone_iff_eq_none, limit_run h.allRows,
      List.findSome?_eq_none_iff]
  offset := offset_run h.allRows calls
  offset_accepted offset := by
    rw [accepts_applyOffset]
    exact isNone_paging_run h.allRows calls
  predicate := predicate_run h.allRows calls
  sorting_accepted call hsorts := by
    rw [(perform_of_sorts hsorts _).1, sortingClosed_run h.allRows, Bool.not_eq_true',
      List.any_eq_false]
    simp only [Bool.not_eq_true]
  clearing_accepted := rfl
  orderings := orderings_run h.allRows calls
  keys_differ := by
    rw [orderings_run h.allRows]
    exact Call.differ_foldl_sortKeys (start.accepted calls)

/-- Two sort keys are set and turned, one of them asked for twice, and two
conditions are made beside the constant `true`. After the limit an offset, another
limit and a further turn are refused, but not the second condition. -/
theorem clausesOfRun_after_limit :
    let name : Expr := .property (.objectReference "Blog" "c") "Name" .string
    let rating : Expr := .property (.objectReference "Blog" "c") "Rating" .number
    let number (value : Int) : Expr := .constant (.number (.integer value)) .number
    let condition (name : String) : Expr := .parameter name .boolean
    let start := forEntity .default "Blog"
    let calls : List Call := [.appendOrdering ⟨name, true⟩, .appendOrdering ⟨rating, false⟩,
      .appendOrdering ⟨name, false⟩, .reverseOrderings, .filter (condition "p"),
      .filter (.constant (.bool true) .boolean), .applyLimit (number 3), .filter (condition "q"),
      .applyOffset (number 1), .applyLimit (number 2), .reverseOrderings]
    start.Initial ∧ (start.run calls).limit = some (number 3) ∧
      (start.run calls).offset = none ∧
      (start.run calls).predicate =
        some (.binary .and (condition "p") (condition "q") .boolean) ∧
      (start.run calls).orderings = [⟨name, false⟩, ⟨rating, true⟩] ∧
      (start.run calls).accepts .reverseOrderings = false := by
  intro name rating number condition start calls
  have hstart : start.Initial := .forEntity .default "Blog"
  have hrun := clausesOfRun hstart calls
  have haccepted : start.accepted calls = [.appendOrdering ⟨name, true⟩,
      .appendOrdering ⟨rating, false⟩, .appendOrdering ⟨name, false⟩, .reverseOrderings,
      .filter (condition "p"), .filter (.constant (.bool true) .boolean),
      .applyLimit (number 3), .filter (condition "q")] := by cbv
  refine ⟨hstart, hrun.limit, hrun.offset, hrun.predicate, ?_, ?_⟩
  · rw [hrun.orderings, haccepted]
    cbv
  · rw [Bool.eq_false_iff, Ne, hrun.sorting_accepted _ rfl, haccepted]
    intro hunrestricted
    have hlimit := hunrestricted (.applyLimit (number 3)) (by simp)
    simp at hlimit

end Block

end DocumentQuery
