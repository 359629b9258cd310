import DocumentQuery.Block.Build
import DocumentQuery.Block.Edit
import DocumentQuery.Proofs.Walking
import DocumentQuery.Routing
import Mathlib.Tactic.ByContra
import Mathlib.Tactic.TFAE
/-!
# Parameters that routing asks for

The partition key and the route of a point read look parameters up in the table
of values, and so they may ask for names that stand nowhere in the query text.
Such a name is not among the parameters that the block is said to need
(`unreported_routing_parameters`). A table with a value for every reported name
settles the routing for good exactly if all the names that routing asks for are
reported (`routing_settled_tfae`).
-/

namespace DocumentQuery

namespace Values

/-- Every name of a list has a value. -/
def Covers (values : Values) (names : List String) : Prop :=
  ∀ name ∈ names, (values name).isSome = true

/-- The names that have a value in the smaller table have the same one in the
larger table. -/
def Extends (larger smaller : Values) : Prop :=
  ∀ name value, smaller name = some value → larger name = some value

theorem eq_of_extends {larger smaller : Values} {names : List String} {name : String}
    (hextends : larger.Extends smaller) (hcovers : smaller.Covers names) (hname : name ∈ names) :
    larger name = smaller name := by
  obtain ⟨value, hvalue⟩ := Option.isSome_iff_exists.mp (hcovers name hname)
  rw [hvalue, hextends name value hvalue]

/-- The table in which the given names are null and all others are without a
value. -/
def nullFor (names : List String) : Values :=
  fun name => if name ∈ names then some .null else none

/-- The table in which the given names are null and all others are true. -/
def trueBut (names : List String) : Values :=
  fun name => some (if name ∈ names then .null else .bool true)

theorem covers_nullFor (names : List String) : (nullFor names).Covers names := by
  intro name hname
  simp [nullFor, hname]

theorem trueBut_extends_nullFor (names : List String) :
    (trueBut names).Extends (nullFor names) := by
  intro name value hvalue
  by_cases hname : name ∈ names
  · simpa [nullFor, trueBut, hname] using hvalue
  · simp [nullFor, hname] at hvalue

end Values

/-! ## What is looked up -/

/-- The parameter that a part of the partition key is looked up under. -/
def KeyBinding.parameter? (binding : KeyBinding) : Option String :=
  match binding.value with
  | .parameter name _ => some name
  | _ => none

/-- The parameters that hold the key of the document. -/
def PointRead.parameters (pointRead : PointRead) : List String :=
  pointRead.keys.map Prod.snd

/-- The names that the partition key and the point read look up. -/
def Block.routingParameters (block : Block) : List String :=
  block.keyBindings.filterMap KeyBinding.parameter? ++
    block.pointRead.toList.flatMap PointRead.parameters

/-- Under both tables the block addresses the same partition, and its point read
can be routed or cannot. -/
structure Block.RoutedAlike (block : Block) (values others : Values) : Prop where
  partitionKey : block.partitionKey values = block.partitionKey others
  pointRead : ∀ pointRead ∈ block.pointRead,
    (pointRead.resolve values).isSome = (pointRead.resolve others).isSome

theorem KeyBinding.resolve_congr {binding : KeyBinding} {values others : Values}
    (h : ∀ name ∈ binding.parameter?, values name = others name) :
    binding.resolve values = binding.resolve others := by
  rcases binding with ⟨value, property⟩
  cases value with
  | parameter name type => exact congrArg (·.getD .null) (h name rfl)
  | _ => rfl

theorem isSome_resolveKeys_iff {values : Values} {keys : List (String × String)} :
    (resolveKeys values keys).isSome = true ↔ values.Covers (keys.map Prod.snd) := by
  induction keys with
  | nil => simp [resolveKeys, Values.Covers]
  | cons key rest ih =>
      have hcovers : values.Covers ((key :: rest).map Prod.snd) ↔
          (values key.2).isSome = true ∧ values.Covers (rest.map Prod.snd) :=
        List.forall_mem_cons
      rw [hcovers, ← ih, resolveKeys]
      cases values key.2 <;> cases resolveKeys values rest <;> simp

theorem PointRead.isSome_resolve_iff {pointRead : PointRead} {values : Values} :
    (pointRead.resolve values).isSome = true ↔ values.Covers pointRead.parameters :=
  isSome_resolveKeys_iff

namespace Block

variable {block : Block} {values others : Values}

theorem mem_routingParameters_of_binding {binding : KeyBinding} {name : String}
    (hbinding : binding ∈ block.keyBindings) (hname : binding.parameter? = some name) :
    name ∈ block.routingParameters :=
  List.mem_append_left _ (List.mem_filterMap.mpr ⟨binding, hbinding, hname⟩)

theorem mem_routingParameters_of_pointRead {pointRead : PointRead} {name : String}
    (hpointRead : block.pointRead = some pointRead) (hname : name ∈ pointRead.parameters) :
    name ∈ block.routingParameters := by
  refine List.mem_append_right _ (List.mem_flatMap.mpr ⟨pointRead, ?_, hname⟩)
  simp [hpointRead]

theorem partitionKey_eq_iff :
    block.partitionKey values = block.partitionKey others ↔
      ∀ binding ∈ block.keyBindings, binding.resolve values = binding.resolve others := by
  unfold partitionKey
  cases block.keyBindings with
  | nil => simp
  | cons first rest =>
      rw [PartitionKey.composite.injEq]
      exact List.map_inj_left

/-- Routing depends on nothing but the names that it looks up. -/
theorem routedAlike_of_agree (h : ∀ name ∈ block.routingParameters, values name = others name) :
    block.RoutedAlike values others := by
  constructor
  · refine partitionKey_eq_iff.mpr fun binding hbinding => KeyBinding.resolve_congr ?_
    exact fun name hname => h name (mem_routingParameters_of_binding hbinding hname)
  · intro pointRead hpointRead
    rw [Bool.eq_iff_iff, PointRead.isSome_resolve_iff, PointRead.isSome_resolve_iff]
    refine forall₂_congr fun name hname => ?_
    rw [h name (mem_routingParameters_of_pointRead hpointRead hname)]

/-- A name outside of a list that routing looks up is missed when only the names
of the list have values. -/
theorem not_routedAlike_of_not_mem {names : List String} {name : String}
    (hname : name ∈ block.routingParameters) (hmissing : name ∉ names) :
    ¬ block.RoutedAlike (.trueBut names) (.nullFor names) := by
  intro halike
  rcases List.mem_append.mp hname with hmem | hmem
  · obtain ⟨⟨value, property⟩, hbinding, hlookup⟩ := List.mem_filterMap.mp hmem
    cases value with
    | parameter other type =>
        obtain rfl : other = name := Option.some.inj hlookup
        have hequal := partitionKey_eq_iff.mp halike.partitionKey _ hbinding
        simp [KeyBinding.resolve, Values.trueBut, Values.nullFor, hmissing] at hequal
    | _ => simp [KeyBinding.parameter?] at hlookup
  · obtain ⟨pointRead, hpointRead, hparameter⟩ := List.mem_flatMap.mp hmem
    have hequal := halike.pointRead pointRead (Option.mem_toList.mp hpointRead)
    have htrue : (pointRead.resolve (.trueBut names)).isSome = true :=
      PointRead.isSome_resolve_iff.mpr fun _ _ => rfl
    rw [htrue, eq_comm, PointRead.isSome_resolve_iff] at hequal
    simpa [Values.nullFor, hmissing] using hequal name hparameter

/-- For a block it comes to the same whether all names that routing looks up are
reported as parameters, whether they all stand in the query text as parameters
as well, and whether no larger table changes the routing once all reported names
have a value. -/
theorem routing_settled_tfae (block : Block) :
    List.TFAE [
      ∀ name ∈ block.routingParameters, name ∈ block.parameterNames,
      ∀ name ∈ block.routingParameters, ∃ type, .parameter name type ∈ block.nodes,
      ∀ larger smaller : Values, smaller.Covers block.parameterNames → larger.Extends smaller →
        block.RoutedAlike larger smaller] := by
  tfae_have 1 ↔ 2 := forall₂_congr fun _ _ => mem_parameterNames_iff
  tfae_have 1 → 3 := by
    intro hreported larger smaller hcovers hextends
    refine routedAlike_of_agree fun name hname => ?_
    exact Values.eq_of_extends hextends hcovers (hreported name hname)
  tfae_have 3 → 1 := by
    intro hsettled name hname
    by_contra hmissing
    refine not_routedAlike_of_not_mem hname hmissing ?_
    exact hsettled _ _ (Values.covers_nullFor _) (Values.trueBut_extends_nullFor _)
  tfae_finish

/-- A block that asks for the values of two parameters and reports neither: with
no value at all its partition key is null, and its point read cannot be routed,
though nothing is missing. -/
theorem unreported_routing_parameters :
    let route : PointRead := ⟨"Order", [("id", "order")]⟩
    let block := (forPointRead .default "Order" route).addKeyBinding "Region"
      (.parameter "region" .string)
    let values := Values.ofList [("region", .string "west"), ("order", .string "o-1")]
    block.parameterNames = [] ∧
      block.partitionKey (fun _ => none) = .composite [.null] ∧
      block.partitionKey values = .composite [.string "west"] ∧
      route.resolve (fun _ => none) = none ∧
      route.resolve values = some [("id", .string "o-1")] := by
  intro route block values
  exact ⟨rfl, rfl, rfl, rfl, rfl⟩

end Block

end DocumentQuery
