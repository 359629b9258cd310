import DocumentQuery.Proofs.Freeze
import DocumentQuery.Proofs.Runs
/-!
# Columns keep their numbers

Whoever asks for a column keeps its number while the block goes on changing. All
that a call ever does to the columns is to provide some more of them
(`growsTo_perform`), and providing a column moves none (`GrowsTo.getElem?`) and
keeps them apart in what they show and in their aliases (`Apart`). So a number that
was answered once stands for the same column from then on.
-/

namespace DocumentQuery

/-! ## Columns that are apart -/

/-- The columns can be told apart by what they show, and by their aliases. -/
structure Apart (columns : List Column) : Prop where
  expressions : columns.Pairwise fun a b => a.expression.same b.expression = false
  aliases : Alias.Distinct (columns.map (·.aliasName))

namespace Apart

variable {columns : List Column}

theorem nil : Apart [] :=
  ⟨.nil, Alias.distinct_nil⟩

theorem pushColumn (h : Apart columns) (expression : Projected) (name : Option String)
    (fallback : String) : Apart (pushColumn columns expression name fallback).2 where
  expressions := by
    rcases pushColumn_cases columns expression name fallback with
      ⟨number, column, -, -, hpushed⟩ | ⟨hnone, hpushed⟩
    · rw [hpushed]
      exact h.expressions
    · rw [hpushed]
      refine List.pairwise_append.mpr ⟨h.expressions, List.pairwise_singleton _ _, ?_⟩
      intro column hcolumn added hadded
      rw [List.mem_singleton.mp hadded]
      exact hnone column hcolumn
  aliases := distinct_pushColumn columns expression name fallback h.aliases

theorem growsTo (h : Apart columns) {later : List Column} (hlater : GrowsTo columns later) :
    Apart later := by
  induction hlater with
  | refl => exact h
  | tail _ hpushed ih =>
      obtain ⟨expression, name, fallback, rfl⟩ := hpushed
      exact ih.pushColumn expression name fallback

theorem eq_of_same (h : Apart columns) {m n : Nat} {a b : Column} (ha : columns[m]? = some a)
    (hb : columns[n]? = some b) (hsame : a.expression.same b.expression = true) : m = n := by
  obtain ⟨hm, rfl⟩ := List.getElem?_eq_some_iff.mp ha
  obtain ⟨hn, rfl⟩ := List.getElem?_eq_some_iff.mp hb
  have hpairs := List.pairwise_iff_getElem.mp h.expressions
  rcases Nat.lt_trichotomy m n with hlt | heq | hgt
  · rw [hpairs m n hm hn hlt] at hsame
    exact absurd hsame Bool.false_ne_true
  · exact heq
  · rw [Projected.same_comm, hpairs n m hn hm hgt] at hsame
    exact absurd hsame Bool.false_ne_true

end Apart

/-! ## One call -/

namespace Call

/-- The column that a call asked for, with the number that it was answered. -/
def handedOut? : Call → Except PlanError Reply → Option (Projected × Nat)
  | .addColumn projected _, .ok (.column number) => some (projected, number)
  | _, _ => none

theorem handedOut?_eq_some {call : Call} {answer : Except PlanError Reply}
    {request : Projected × Nat} (h : call.handedOut? answer = some request) :
    ∃ aliasName, call = .addColumn request.1 aliasName ∧ answer = .ok (.column request.2) := by
  unfold handedOut? at h
  split at h
  · obtain rfl := Option.some.inj h
    exact ⟨_, rfl, rfl⟩
  · simp at h

end Call

namespace Block

variable {block : Block} {columns : List Column} {bindings : Mapping Nat}

theorem Initial.apart (h : block.Initial) : Apart block.projection.columns := by
  cases h with
  | ofValue expression => exact Apart.nil.pushColumn (.scalar expression) none defaultColumnAlias
  | forEntity config entityType => exact Apart.nil
  | forPointRead config entityType pointRead => exact Apart.nil
  | ofText config entityType text => exact Apart.nil
  | projecting projected => exact Apart.nil
  | overCollection collection aliasName projected => exact Apart.nil

/-- A column that is refused leaves the columns as they are, so that they grow
in either case, and the bindings stay. -/
theorem projection_pushTo (block : Block) (columns : List Column) (bindings : Mapping Nat)
    (projected : Projected) (aliasName : Option String) :
    ∃ later, GrowsTo columns later ∧
      (block.pushTo columns bindings projected aliasName).block.projection =
        .frozen later bindings := by
  rw [pushTo_eq]
  split
  · exact ⟨columns, .refl, rfl⟩
  · exact ⟨_, growsTo_pushColumn columns projected aliasName defaultColumnAlias, rfl⟩

/-- Once the block is frozen it stays so; its columns grow, and its bindings
stay until they are cleared. -/
theorem frozen_perform (h : block.projection = .frozen columns bindings) (call : Call) :
    ∃ later, GrowsTo columns later ∧
      (block.perform call).block.projection =
        .frozen later (if call.clearsBindings then .empty else bindings) := by
  cases hadds : call.addsColumn with
  | false => exact ⟨columns, .refl, perform_frozen h hadds⟩
  | true =>
      cases call with
      | addColumn projected aliasName =>
          rw [perform, Outcome.block_map, addColumn_frozen h]
          exact projection_pushTo block columns bindings projected aliasName
      | _ => simp [Call.addsColumn] at hadds

theorem growsTo_settle {mapping : Mapping Projected} (h : block.projection = .pending mapping)
    (hsettle : block.settle = .ok (columns, bindings)) : GrowsTo [] columns := by
  obtain ⟨hfrozen, -⟩ := (settle_pending_eq_ok_iff h columns bindings).mp hsettle
  have hcolumns := growsTo_freezeFrom defaultColumnAlias [] .empty mapping.entries
  rwa [hfrozen] at hcolumns

theorem growsTo_perform (block : Block) (call : Call) :
    GrowsTo block.projection.columns (block.perform call).block.projection.columns := by
  cases hprojection : block.projection with
  | frozen columns bindings =>
      obtain ⟨later, hgrows, hlater⟩ := frozen_perform hprojection call
      rw [hlater]
      exact hgrows
  | pending mapping =>
      rcases perform_pending hprojection call with ⟨after, hafter⟩ |
        ⟨columns, bindings, hsettle, hafter⟩ |
        ⟨columns, bindings, projected, aliasName, hcolumns, hafter⟩
      · rw [hafter]
        exact .refl
      · rw [hafter]
        exact growsTo_settle hprojection hsettle
      · obtain ⟨later, hgrows, hlater⟩ :=
          projection_pushTo block columns bindings projected aliasName
        rw [hafter, hlater]
        rcases hcolumns with rfl | hsettle
        · exact hgrows
        · exact (growsTo_settle hprojection hsettle).trans hgrows

theorem exists_of_pushTo {projected : Projected} {aliasName : Option String} {number : Nat}
    (h : (block.pushTo columns bindings projected aliasName).answer = .ok number) :
    ∃ column, (block.pushTo columns bindings projected aliasName).block.projection.columns[number]?
        = some column ∧ column.expression.same projected = true := by
  rw [pushTo_eq] at h ⊢
  split at h
  · simp at h
  · rename_i hroom
    rw [if_neg hroom]
    obtain rfl := Except.ok.inj h
    exact exists_getElem?_pushColumn columns projected aliasName defaultColumnAlias

theorem exists_of_addColumn {projected : Projected} {aliasName : Option String} {number : Nat}
    (h : (block.addColumn projected aliasName).answer = .ok number) :
    ∃ column, (block.addColumn projected aliasName).block.projection.columns[number]?
        = some column ∧ column.expression.same projected = true := by
  rcases addColumn_cases block projected aliasName with
    ⟨error, hcolumn⟩ | hcolumn | ⟨columns, bindings, -, hcolumn⟩
  · rw [hcolumn] at h
    simp at h
  · rw [hcolumn] at h ⊢
    exact exists_of_pushTo h
  · rw [hcolumn] at h ⊢
    exact exists_of_pushTo h

/-! ## Runs -/

/-- What columns were asked for in a run, with the numbers that were answered. -/
def handedOut (block : Block) : List Call → List (Projected × Nat)
  | [] => []
  | call :: rest =>
    (call.handedOut? (block.perform call).answer).toList ++
      (block.perform call).block.handedOut rest

theorem mem_handedOut_cons {call : Call} {rest : List Call} {request : Projected × Nat}
    (h : request ∈ block.handedOut (call :: rest)) :
    (∃ aliasName, call = .addColumn request.1 aliasName ∧
        (block.addColumn request.1 aliasName).answer = .ok request.2) ∨
      request ∈ (block.perform call).block.handedOut rest := by
  rw [handedOut, List.mem_append, Option.mem_toList] at h
  rcases h with hnow | hlater
  · obtain ⟨aliasName, rfl, hanswer⟩ := Call.handedOut?_eq_some hnow
    refine Or.inl ⟨aliasName, rfl, ?_⟩
    rw [perform, Outcome.map] at hanswer
    cases hcolumn : (block.addColumn request.1 aliasName).answer with
    | error error => simp [hcolumn, Except.map] at hanswer
    | ok number =>
        rw [hcolumn] at hanswer
        simpa [Except.map] using hanswer
  · exact Or.inr hlater

theorem growsTo_run (block : Block) (calls : List Call) :
    GrowsTo block.projection.columns (block.run calls).projection.columns := by
  induction calls generalizing block with
  | nil => exact .refl
  | cons call rest ih => exact (growsTo_perform block call).trans (ih _)

theorem frozen_run_bindings (h : block.projection = .frozen columns bindings)
    (calls : List Call) :
    ∃ later, (block.run calls).projection =
      .frozen later (if calls.any Call.clearsBindings then .empty else bindings) := by
  induction calls generalizing block columns bindings with
  | nil => exact ⟨columns, h⟩
  | cons call rest ih =>
      obtain ⟨between, -, hbetween⟩ := frozen_perform h call
      obtain ⟨later, hlater⟩ := ih hbetween
      refine ⟨later, hlater.trans ?_⟩
      cases hclears : call.clearsBindings <;> simp [hclears]

theorem exists_of_handedOut {calls : List Call} {request : Projected × Nat}
    (h : request ∈ block.handedOut calls) :
    ∃ column, (block.run calls).projection.columns[request.2]? = some column ∧
      column.expression.same request.1 = true := by
  induction calls generalizing block with
  | nil => simp [handedOut] at h
  | cons call rest ih =>
      rcases mem_handedOut_cons h with ⟨aliasName, rfl, hanswer⟩ | hlater
      · obtain ⟨column, hcolumn, hsame⟩ := exists_of_addColumn hanswer
        exact ⟨column, (growsTo_run _ rest).getElem? hcolumn, hsame⟩
      · exact ih hlater

/-- What can be relied on of the columns `later` of a block that had settled on
`columns` and has handed out numbers. -/
structure Slots (columns later : List Column) (handedOut : List (Projected × Nat)) : Prop where
  /-- A column stays as it is, where it is. -/
  kept : ∀ (number : Nat) (column : Column), columns[number]? = some column →
    later[number]? = some column
  /-- A number that was answered stands for a column that shows what was asked for. -/
  shown : ∀ request ∈ handedOut, ∃ column, later[request.2]? = some column ∧
    column.expression.same request.1 = true
  /-- The same number is answered exactly for the same expressions. -/
  shared : ∀ a ∈ handedOut, ∀ b ∈ handedOut, a.2 = b.2 ↔ a.1.same b.1 = true
  /-- No two columns show the same, and their aliases do not collide. -/
  apart : Apart later

/-- Once a block is frozen it stays so, and the columns can be relied on whatever
calls follow; the bindings stay as they are until they are cleared. -/
theorem slots_run {start : Block} (h : start.Initial) (earlier later : List Call)
    (hfrozen : (start.run earlier).projection = .frozen columns bindings) :
    ∃ after, (start.run (earlier ++ later)).projection =
        .frozen after (if later.any Call.clearsBindings then .empty else bindings) ∧
      Slots columns after (start.handedOut (earlier ++ later)) := by
  obtain ⟨after, hafter⟩ := frozen_run_bindings hfrozen later
  rw [← run_append] at hafter
  have hgrows := growsTo_run (start.run earlier) later
  rw [← run_append, hfrozen, hafter] at hgrows
  have hshown : ∀ request ∈ start.handedOut (earlier ++ later),
      ∃ column, after[request.2]? = some column ∧ column.expression.same request.1 = true := by
    intro request hrequest
    have hcolumn := exists_of_handedOut hrequest
    rwa [hafter] at hcolumn
  have hapart := h.apart.growsTo (growsTo_run start (earlier ++ later))
  rw [hafter] at hapart
  refine ⟨after, hafter, fun number column => hgrows.getElem?, hshown, ?_, hapart⟩
  intro a ha b hb
  obtain ⟨first, hfirst, hsameFirst⟩ := hshown a ha
  obtain ⟨second, hsecond, hsameSecond⟩ := hshown b hb
  constructor
  · intro hnumber
    rw [hnumber, hsecond] at hfirst
    obtain rfl := Option.some.inj hfirst
    rw [Projected.same_comm] at hsameFirst
    exact Projected.same_trans hsameFirst hsameSecond
  · intro hsame
    rw [Projected.same_comm] at hsameSecond
    exact hapart.eq_of_same hfirst hsecond
      (Projected.same_trans (Projected.same_trans hsameFirst hsame) hsameSecond)

/-- A name is asked for after the documents were settled on, and again after the
bindings were cleared. -/
theorem slots_run_twice :
    let name := Projected.scalar (.property (.objectReference "Blog" "c") "Name" .string)
    let later := [Call.addColumn name none, .clearMapping, .addColumn name (some "Title")]
    let start := forEntity .default "Blog"
    start.Initial ∧ ∃ columns bindings,
      (start.run [.applyProjection]).projection = .frozen columns bindings ∧
      start.handedOut ([.applyProjection] ++ later) = [(name, 1), (name, 1)] ∧
      ∃ after, (start.run ([.applyProjection] ++ later)).projection = .frozen after .empty ∧
        Slots columns after (start.handedOut ([.applyProjection] ++ later)) := by
  intro name later start
  have hstart : start.Initial := .forEntity .default "Blog"
  have hanswers : start.handedOut ([.applyProjection] ++ later) = [(name, 1), (name, 1)] := by
    simp [start, later, name, handedOut, Call.handedOut?, perform, Outcome.map, Outcome.done,
      Except.map, forEntity, projecting, Block.empty, applyProjection, settle, freezeFrom,
      addColumn, bindsNothing, pushTo, pushColumn, columnOf?, newColumn, Projected.same,
      Block.clearMapping, Projection.clearMapping]
  obtain ⟨after, hafter, hslots⟩ := slots_run hstart [.applyProjection] later rfl
  exact ⟨hstart, _, _, rfl, hanswers, after, hafter, hslots⟩

end Block

end DocumentQuery
