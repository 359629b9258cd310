import DocumentQuery.Proofs.Runs
import Mathlib.Tactic.ByContra
/-!
# The rows of a block

A block that neither sorts its rows nor drops duplicates, and that says by plain
numbers how many rows it leaves out and lets through, puts out a page of the
rows of its sources that satisfy the predicate (`rows?`). Which rows satisfy an
expression is left open; a `Reading` says it.

A further limit or offset is about the rows that the block put out so far, or it
is refused. A further condition is never refused, but joins the predicate, which
comes before the page. So it is about the rows that were put out so far only if
the page lets through all of them or none, or if the predicate demanded the
condition before (`actsOnRows_filter_iff`).
-/

namespace DocumentQuery

/-! ## Conditions -/

/-- The conditions that an expression demands together; the constant `true`
demands none. -/
def Expr.conjuncts : Expr → List Expr
  | .binary .and left right _ => left.conjuncts ++ right.conjuncts
  | condition => if condition.isTrue then [] else [condition]

/-- Which rows satisfy an expression. Nothing is known of it, other than how it
reads `AND` and the constant `true`. -/
structure Reading (Row : Type) where
  holds : Expr → Row → Bool
  holds_and : ∀ left right type row,
    holds (.binary .and left right type) row = (holds left row && holds right row)
  holds_true : ∀ type row, holds (.constant (.bool true) type) row = true

namespace Reading

variable {Row : Type}

theorem holds_of_isTrue (reading : Reading Row) {condition : Expr}
    (h : condition.isTrue = true) (row : Row) : reading.holds condition row = true := by
  unfold Expr.isTrue at h
  split at h
  · exact reading.holds_true _ row
  · exact absurd h Bool.false_ne_true

theorem holds_eq_all (reading : Reading Row) (condition : Expr) (row : Row) :
    reading.holds condition row = condition.conjuncts.all (reading.holds · row) := by
  fun_induction Expr.conjuncts condition with
  | case1 left right type ihleft ihright =>
      rw [reading.holds_and, List.all_append, ihleft, ihright]
  | case2 condition hand htrue => simp [reading.holds_of_isTrue htrue]
  | case3 condition hand htrue => simp

/-- What rows satisfy may be chosen for each condition that is no `AND`. -/
def ofConjuncts (satisfies : Expr → Row → Bool) : Reading Row where
  holds condition row := condition.conjuncts.all (satisfies · row)
  holds_and left right type row := by rw [Expr.conjuncts, List.all_append]
  holds_true type row := rfl

end Reading

/-! ## Pages -/

/-- How many rows are left out at the beginning and how many are let through. -/
structure Page where
  offset : Option Nat
  limit : Option Nat

namespace Page

variable {Row : Type} {page : Page}

def cut (page : Page) (rows : List Row) : List Row :=
  let rest := rows.drop (page.offset.getD 0)
  match page.limit with
  | none => rest
  | some count => rest.take count

/-- All rows are on the page, or none. -/
def TakesAllOrNone (page : Page) : Prop :=
  page.offset.getD 0 = 0 ∧ page.limit = none ∨ page.limit = some 0

theorem cut_limit (h : page.limit = none) (count : Nat) (rows : List Row) :
    cut { page with limit := some count } rows = (page.cut rows).take count := by
  rw [cut, cut, h]

theorem cut_offset (hlimit : page.limit = none) (hoffset : page.offset = none) (count : Nat)
    (rows : List Row) :
    cut { page with offset := some count } rows = (page.cut rows).drop count := by
  rw [cut, cut, hlimit, hoffset]
  rfl

theorem mem_of_mem_cut {row : Row} {rows : List Row} (h : row ∈ page.cut rows) : row ∈ rows := by
  rw [cut] at h
  split at h
  · exact List.mem_of_mem_drop h
  · exact List.mem_of_mem_drop (List.mem_of_mem_take h)

theorem TakesAllOrNone.cut_filter (h : page.TakesAllOrNone) (keep : Row → Bool)
    (rows : List Row) : page.cut (rows.filter keep) = (page.cut rows).filter keep := by
  rcases h with ⟨hoffset, hlimit⟩ | hlimit
  · rw [cut, cut, hoffset, hlimit]
    rfl
  · rw [cut, cut, hlimit]
    rfl

/-- Any other page shows something else if rows are dropped before it is cut: the
rows that are dropped here are the first one, and all others are alike. -/
theorem exists_cut_filter_ne (h : ¬ page.TakesAllOrNone) :
    ∃ rows : List Bool, page.cut (rows.filter id) ≠ (page.cut rows).filter id := by
  cases hoffset : page.offset.getD 0 with
  | zero =>
      cases hlimit : page.limit with
      | none => exact absurd (Or.inl ⟨hoffset, hlimit⟩) h
      | some limit =>
          cases limit with
          | zero => exact absurd (Or.inr hlimit) h
          | succ count =>
              -- a row that is dropped makes room for one more
              refine ⟨false :: List.replicate (count + 1) true, ?_⟩
              simp [cut, hoffset, hlimit]
  | succ skipped =>
      -- in place of the row that is dropped the offset leaves out another one
      refine ⟨false :: List.replicate (skipped + 1) true, ?_⟩
      cases hlimit : page.limit with
      | none => simp [cut, hoffset, hlimit]
      | some limit =>
          cases limit with
          | zero => exact absurd (Or.inr hlimit) h
          | succ count => simp [cut, hoffset, hlimit]

end Page

/-- The number that a constant says, if rows can be counted by it. -/
def Expr.count? : Expr → Option Nat
  | .constant (.number (.integer (.ofNat count))) _ => some count
  | _ => none

namespace Block

variable {Row : Type} {block : Block}

/-- The page that offset and limit say by plain numbers, unless rows are sorted
or dropped as duplicates. -/
def page? (block : Block) : Option Page :=
  if block.distinct || !block.orderings.isEmpty then none
  else return ⟨← block.offset.mapM Expr.count?, ← block.limit.mapM Expr.count?⟩

def demands (block : Block) : List Expr :=
  block.predicate.elim [] Expr.conjuncts

def admits (block : Block) (reading : Reading Row) (row : Row) : Bool :=
  block.predicate.all (reading.holds · row)

/-- The rows that a block puts out if its sources put out `source`. -/
def rows? (block : Block) (reading : Reading Row) (source : List Row) : Option (List Row) :=
  block.page?.map fun page => page.cut (source.filter (block.admits reading))

/-- One block puts out what becomes of the rows that another puts out, whatever
the rows are and which of them satisfy a condition. -/
def ActsOnRows (before after : Block)
    (change : ∀ {Row : Type}, Reading Row → List Row → List Row) : Prop :=
  ∀ (Row : Type) (reading : Reading Row) (source : List Row),
    after.rows? reading source = (before.rows? reading source).map (change reading)

/-! ## Limit and offset -/

theorem page?_eq_some_iff {page : Page} :
    block.page? = some page ↔ block.distinct = false ∧ block.orderings = [] ∧
      block.offset.mapM Expr.count? = some page.offset ∧
        block.limit.mapM Expr.count? = some page.limit := by
  rcases page with ⟨offset, limit⟩
  cases hdistinct : block.distinct with
  | true => simp [page?, hdistinct]
  | false =>
      cases horderings : block.orderings with
      | cons key rest => simp [page?, horderings]
      | nil => simp [page?, hdistinct, horderings, Option.bind_eq_some_iff]

theorem page?_limit (h : block.limit = none) {limit : Expr} {count : Nat}
    (hcount : limit.count? = some count) :
    page? { block with limit := some limit } =
      block.page?.map fun page => { page with limit := some count } := by
  rw [page?, page?, h]
  by_cases hplain : (block.distinct || !block.orderings.isEmpty) = true
  · rw [if_pos hplain, if_pos hplain]
    rfl
  · rw [if_neg hplain, if_neg hplain]
    cases block.offset.mapM Expr.count? <;> simp [hcount]

theorem page?_offset (h : block.offset = none) {offset : Expr} {count : Nat}
    (hcount : offset.count? = some count) :
    page? { block with offset := some offset } =
      block.page?.map fun page => { page with offset := some count } := by
  rw [page?, page?, h]
  by_cases hplain : (block.distinct || !block.orderings.isEmpty) = true
  · rw [if_pos hplain, if_pos hplain]
    rfl
  · rw [if_neg hplain, if_neg hplain]
    cases block.limit.mapM Expr.count? <;> simp [hcount]

theorem limit_of_page? (h : block.limit = none) {page : Page} (hpage : block.page? = some page) :
    page.limit = none := by
  have hlimit := (page?_eq_some_iff.mp hpage).2.2.2
  rw [h] at hlimit
  exact (Option.some.inj hlimit).symm

theorem offset_of_page? (h : block.offset = none) {page : Page}
    (hpage : block.page? = some page) : page.offset = none := by
  have hoffset := (page?_eq_some_iff.mp hpage).2.2.1
  rw [h] at hoffset
  exact (Option.some.inj hoffset).symm

/-- If a block is free for a clause, the call that asks for it acts on the rows
that the block put out so far, and else the call is refused. -/
def ActsOrRefuses (block : Block) (free : Prop) (clause : Expr) (outcome : Outcome Unit)
    (change : ∀ {Row : Type}, List Row → List Row) : Prop :=
  free ∧ outcome.answer = .ok () ∧ ActsOnRows block outcome.block (fun _ => change) ∨
    ¬ free ∧ outcome = block.reject clause.text .noSubqueryPushdown

theorem actsOrRefuses_limit (block : Block) {limit : Expr} {count : Nat}
    (hcount : limit.count? = some count) :
    ActsOrRefuses block (block.limit = none) limit (block.applyLimit limit) (List.take count) := by
  cases hlimit : block.limit with
  | some first => exact Or.inr ⟨by simp, by simp [applyLimit, hlimit]⟩
  | none =>
      have haccepted : block.applyLimit limit = ⟨.ok (), { block with limit := some limit }⟩ := by
        simp [applyLimit, hlimit]
      rw [haccepted]
      refine Or.inl ⟨rfl, rfl, ?_⟩
      intro Row reading source
      rw [rows?, rows?, page?_limit hlimit hcount, Option.map_map, Option.map_map]
      apply Option.map_congr
      intro page hpage
      exact Page.cut_limit (limit_of_page? hlimit hpage) count _

theorem actsOrRefuses_offset (block : Block) {offset : Expr} {count : Nat}
    (hcount : offset.count? = some count) :
    ActsOrRefuses block (block.limit = none ∧ block.offset = none) offset
      (block.applyOffset offset) (List.drop count) := by
  by_cases hfree : block.limit = none ∧ block.offset = none
  · obtain ⟨hlimit, hoffset⟩ := hfree
    have haccepted : block.applyOffset offset =
        ⟨.ok (), { block with offset := some offset }⟩ := by
      simp [applyOffset, hlimit, hoffset]
    rw [haccepted]
    refine Or.inl ⟨⟨hlimit, hoffset⟩, rfl, ?_⟩
    intro Row reading source
    rw [rows?, rows?, page?_offset hoffset hcount, Option.map_map, Option.map_map]
    apply Option.map_congr
    intro page hpage
    exact Page.cut_offset (limit_of_page? hlimit hpage) (offset_of_page? hoffset hpage) count _
  · refine Or.inr ⟨hfree, ?_⟩
    rw [applyOffset, if_pos]
    cases hlimit : block.limit with
    | some first => rfl
    | none =>
        cases hoffset : block.offset with
        | some first => rfl
        | none => exact absurd ⟨hlimit, hoffset⟩ hfree

/-! ## Predicate -/

theorem page?_filter (block : Block) (condition : Expr) :
    (block.filter condition).page? = block.page? := by
  rw [filter]
  split
  · rfl
  · split <;> rfl

theorem admits_filter (block : Block) (condition : Expr) (reading : Reading Row) (row : Row) :
    (block.filter condition).admits reading row =
      (block.admits reading row && reading.holds condition row) := by
  rw [filter]
  split
  · rename_i htrue
    rw [reading.holds_of_isTrue htrue, Bool.and_true]
  · split
    · rename_i hpredicate
      simp [admits, hpredicate]
    · rename_i predicate hpredicate
      simp [admits, hpredicate, Expr.both, Expr.apply, reading.holds_and]

theorem admits_eq_all (block : Block) (reading : Reading Row) (row : Row) :
    block.admits reading row = block.demands.all (reading.holds · row) := by
  rw [admits, demands]
  cases block.predicate with
  | none => rfl
  | some predicate => exact reading.holds_eq_all predicate row

/-- The rows of a block of which a further condition is demanded: the condition
comes before the page. -/
theorem rows?_filter (block : Block) (condition : Expr) (reading : Reading Row)
    (source : List Row) :
    (block.filter condition).rows? reading source = block.page?.map fun page =>
      page.cut ((source.filter (block.admits reading)).filter (reading.holds condition)) := by
  have hadmits : (block.filter condition).admits reading =
      fun row => reading.holds condition row && block.admits reading row := by
    funext row
    rw [admits_filter, Bool.and_comm]
  rw [rows?, page?_filter, hadmits]
  simp only [List.filter_filter]

/-- What a block demands already it may be asked for again. -/
theorem filter_of_conjuncts_subset {condition : Expr} (h : condition.conjuncts ⊆ block.demands)
    (reading : Reading Row) {rows : List Row}
    (hrows : ∀ row ∈ rows, block.admits reading row = true) :
    rows.filter (reading.holds condition) = rows := by
  rw [List.filter_eq_self]
  intro row hmem
  have hadmits := hrows row hmem
  rw [admits_eq_all, List.all_eq_true] at hadmits
  rw [reading.holds_eq_all, List.all_eq_true]
  intro conjunct hconjunct
  exact hadmits conjunct (h hconjunct)

theorem admits_ofConjuncts (block : Block) (satisfies : Expr → Row → Bool) (row : Row) :
    block.admits (.ofConjuncts satisfies) row = block.demands.all (satisfies · row) := by
  rw [admits, demands]
  cases block.predicate <;> rfl

/-- A condition that is new to a block may be met by just the rows that one
likes, while all rows meet what the block demands. -/
theorem exists_reading {condition conjunct : Expr} (hdemanded : conjunct ∈ condition.conjuncts)
    (hnew : conjunct ∉ block.demands) (keep : Row → Bool) :
    ∃ reading : Reading Row, reading.holds condition = keep ∧
      ∀ row, block.admits reading row = true := by
  classical
  -- every conjunct holds everywhere, but for the new one
  let satisfies (other : Expr) (row : Row) : Bool := decide (other ≠ conjunct) || keep row
  refine ⟨.ofConjuncts satisfies, ?_, ?_⟩
  · funext row
    change condition.conjuncts.all (satisfies · row) = keep row
    cases hkeep : keep row with
    | true =>
        rw [List.all_eq_true]
        intro other _
        simp [satisfies, hkeep]
    | false =>
        rw [List.all_eq_false]
        exact ⟨conjunct, hdemanded, by simp [satisfies, hkeep]⟩
  · intro row
    rw [admits_ofConjuncts, List.all_eq_true]
    intro other hother
    have hne : other ≠ conjunct := by
      rintro rfl
      exact hnew hother
    simp [satisfies, hne]

theorem actsOnRows_filter {condition : Expr} (h : ∀ page, block.page? = some page →
      page.TakesAllOrNone ∨ condition.conjuncts ⊆ block.demands) :
    ActsOnRows block (block.filter condition)
      fun reading rows => rows.filter (reading.holds condition) := by
  intro Row reading source
  rw [rows?_filter, rows?, Option.map_map]
  apply Option.map_congr
  intro page hpage
  rcases h page hpage with hwhole | hold
  · exact hwhole.cut_filter _ _
  · -- no row is dropped, neither before the page nor after it
    have hadmitted : ∀ row ∈ source.filter (block.admits reading),
        block.admits reading row = true := fun row hmem => (List.mem_filter.mp hmem).2
    rw [filter_of_conjuncts_subset hold reading hadmitted]
    exact (filter_of_conjuncts_subset hold reading fun row hmem =>
      hadmitted row (Page.mem_of_mem_cut hmem)).symm

theorem not_actsOnRows_filter {page : Page} (hpage : block.page? = some page)
    (hpartial : ¬ page.TakesAllOrNone) {condition conjunct : Expr}
    (hdemanded : conjunct ∈ condition.conjuncts) (hnew : conjunct ∉ block.demands) :
    ¬ ActsOnRows block (block.filter condition)
      fun reading rows => rows.filter (reading.holds condition) := by
  intro hacts
  obtain ⟨rows, hrows⟩ := Page.exists_cut_filter_ne hpartial
  -- the truth values themselves are the rows
  obtain ⟨reading, hholds, hadmits⟩ := exists_reading hdemanded hnew (id : Bool → Bool)
  have hall : rows.filter (block.admits reading) = rows :=
    List.filter_eq_self.mpr fun row _ => hadmits row
  have hbefore : block.rows? reading rows = some (page.cut rows) := by
    rw [rows?, hpage, Option.map_some, hall]
  have hafter : (block.filter condition).rows? reading rows =
      some (page.cut (rows.filter id)) := by
    rw [rows?_filter, hpage, Option.map_some, hall, hholds]
  have hequal : some (page.cut (rows.filter id)) =
      some ((page.cut rows).filter (reading.holds condition)) := by
    rw [← hafter, hacts Bool reading rows, hbefore, Option.map_some]
  rw [hholds] at hequal
  exact hrows (Option.some.inj hequal)

/-- A further condition is about the rows that the block put out so far exactly
if the page lets through all rows or none, or the block demanded the condition
before. -/
theorem actsOnRows_filter_iff (block : Block) (condition : Expr) :
    ActsOnRows block (block.filter condition)
        (fun reading rows => rows.filter (reading.holds condition)) ↔
      ∀ page, block.page? = some page →
        page.TakesAllOrNone ∨ condition.conjuncts ⊆ block.demands := by
  constructor
  · intro hacts page hpage
    by_contra hneither
    rw [not_or] at hneither
    obtain ⟨hpartial, hnew⟩ := hneither
    apply hnew
    intro conjunct hdemanded
    by_contra hconjunct
    exact not_actsOnRows_filter hpage hpartial hdemanded hconjunct hacts
  · exact actsOnRows_filter

/-- A limit or an offset is about the rows that a block put out so far, or it is
refused. A condition is always taken, also where it is about other rows. -/
theorem rows_after_call (block : Block) :
    (∀ limit count, limit.count? = some count →
      ActsOrRefuses block (block.limit = none) limit (block.applyLimit limit)
        (List.take count)) ∧
    (∀ offset count, offset.count? = some count →
      ActsOrRefuses block (block.limit = none ∧ block.offset = none) offset
        (block.applyOffset offset) (List.drop count)) ∧
    ∀ condition, block.accepts (.filter condition) = true ∧
      (ActsOnRows block (block.filter condition)
          (fun reading rows => rows.filter (reading.holds condition)) ↔
        ∀ page, block.page? = some page →
          page.TakesAllOrNone ∨ condition.conjuncts ⊆ block.demands) :=
  ⟨fun _ _ hcount => block.actsOrRefuses_limit hcount,
    fun _ _ hcount => block.actsOrRefuses_offset hcount,
    fun condition => ⟨rfl, block.actsOnRows_filter_iff condition⟩⟩

/-- After an offset a limit is about the rows that are left, and a condition is
not. -/
theorem rows_after_offset :
    let number (count : Nat) : Expr := .constant (.number (.integer count)) .number
    let published : Expr := .parameter "published" .boolean
    let block := ((forEntity .default "Blog").applyOffset (number 1)).block
    (number 2).count? = some 2 ∧ block.page? = some ⟨some 1, none⟩ ∧
      ActsOnRows block (block.applyLimit (number 2)).block (fun _ rows => rows.take 2) ∧
      ¬ ActsOnRows block (block.filter published)
        (fun reading rows => rows.filter (reading.holds published)) := by
  intro number published block
  have hpage : block.page? = some ⟨some 1, none⟩ := rfl
  have hdemands : block.demands = [] := rfl
  obtain ⟨hlimit, -, hfilter⟩ := rows_after_call block
  refine ⟨rfl, hpage, ?_, ?_⟩
  · rcases hlimit (number 2) 2 rfl with ⟨-, -, hacts⟩ | ⟨hlimited, -⟩
    · exact hacts
    · exact absurd rfl hlimited
  · rw [(hfilter published).2]
    intro hpages
    rcases hpages _ hpage with (⟨hoffset, -⟩ | hlimit) | hdemanded
    · simp at hoffset
    · simp at hlimit
    · rw [hdemands] at hdemanded
      exact absurd (hdemanded (List.mem_singleton_self published)) List.not_mem_nil

/-- The first row is put out alone; asked for published rows, the block puts out
the second one. -/
theorem published_row_after_limit :
    let one : Expr := .constant (.number (.integer 1)) .number
    let published : Expr := .parameter "published" .boolean
    let block := ((forEntity .default "Blog").applyLimit one).block
    let reading : Reading Bool := .ofConjuncts fun _ row => row
    block.rows? reading [false, true] = some [false] ∧
      [false].filter (reading.holds published) = [] ∧
      block.accepts (.filter published) = true ∧
      (block.filter published).rows? reading [false, true] = some [true] := by
  intro one published block reading
  exact ⟨rfl, rfl, rfl, rfl⟩

end Block

end DocumentQuery
