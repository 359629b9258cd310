import DocumentQuery.Json.Decode
import DocumentQuery.Proofs.JsonValues
import DocumentQuery.Proofs.PlanForm
/-!
# Reading what was written in a form

A reader recovers a value from a form (`Recovers`) if it reads every writing of
the form to something that is as good as the value, as soon as it may enter as
many arrays and objects as are nested in the writing. The full writing it must
not read with less.

A reader of an array, a variant or a record recovers the whole if the readers of
the parts recover the parts. There is one lemma for each of these, and a further
one for records in which fields may be left out (`Recovers.sparse`).
-/

namespace DocumentQuery

open PlanForm

/-! ## The fields of a record -/

theorem Tree.ofFields_eq_map (fields : List (String × Json)) :
    Tree.ofFields fields = fields.map fun field => (some field.1, Tree.ofJson field.2) := by
  induction fields with
  | nil => rfl
  | cons field rest ih => rw [Tree.ofFields, ih, List.map_cons]

theorem filter_of_nodup {name : String} {fields : List (String × Json)}
    (hnodup : (fields.map Prod.fst).Nodup) :
    fields.filter (·.1 == name) =
      ((OrderedMap.lookupEntry name fields).map (name, ·)).toList := by
  induction fields with
  | nil => rfl
  | cons field rest ih =>
      obtain ⟨hnew, hrest⟩ := List.nodup_cons.mp hnodup
      by_cases hname : field.1 = name
      · subst hname
        have hnone := (OrderedMap.lookupEntry_eq_none_iff field.1 rest).mpr hnew
        simp [OrderedMap.lookupEntry, ih hrest, hnone]
      · simp [OrderedMap.lookupEntry, hname, ih hrest]

/-- The field of a name is found wherever it stands between fields of other
names. -/
theorem field?_ofFields {name : String} {all written : List (String × Json)}
    (hnodup : (written.map Prod.fst).Nodup)
    (hperm : (all.filter (·.1 == name)).Perm (written.filter (·.1 == name))) :
    field? name (Tree.ofFields all) =
      some ((OrderedMap.lookupEntry name written).map Tree.ofJson) := by
  have hfilter : (Tree.ofFields all).filter (fun field => field.1 == some name) =
      Tree.ofFields (all.filter (·.1 == name)) := by
    simp [Tree.ofFields_eq_map, List.filter_map, Function.comp_def]
  rw [filter_of_nodup hnodup] at hperm
  rw [field?, hfilter]
  cases hlookup : OrderedMap.lookupEntry name written with
  | none =>
      rw [hlookup] at hperm
      rw [List.Perm.eq_nil hperm]
      rfl
  | some value =>
      rw [hlookup] at hperm
      rw [List.perm_singleton.mp hperm]
      rfl

theorem fields?_ofFields {names : List String} {all written : List (String × Json)}
    (hnodup : (written.map Prod.fst).Nodup)
    (hperm : ∀ name ∈ names,
      (all.filter (·.1 == name)).Perm (written.filter (·.1 == name))) :
    fields? (Tree.ofFields all) names =
      some (names.map fun name => (OrderedMap.lookupEntry name written).map Tree.ofJson) := by
  induction names with
  | nil => rfl
  | cons name rest ih =>
      obtain ⟨hname, hrest⟩ := List.forall_mem_cons.mp hperm
      rw [fields?, field?_ofFields hnodup hname, ih hrest, List.map_cons]

/-- What a field may be found to be, if `limit` arrays and objects can still be
entered. -/
def FormField.Answer (limit : Nat) (field : FormField PlanForm) : Option Json → Prop
  | none => field.omittable = true
  | some value => field.content.WrittenAs value ∧ value.depth ≤ limit

theorem PlanForm.FieldsWrittenAs.keys {fields : List (FormField PlanForm)}
    {written : List (String × Json)} (h : FieldsWrittenAs fields written) :
    (written.map Prod.fst).Sublist (fields.map (·.name)) := by
  induction fields generalizing written with
  | nil =>
      cases h
      exact List.Sublist.refl _
  | cons field rest ih =>
      cases h with
      | leave _ hrest => exact (ih hrest).cons _
      | write _ hrest => exact (ih hrest).cons_cons _

theorem PlanForm.FieldsWrittenAs.answer {fields : List (FormField PlanForm)}
    {written : List (String × Json)} {limit : Nat} (h : FieldsWrittenAs fields written)
    (hnodup : (fields.map (·.name)).Nodup) (hdepth : ∀ field ∈ written, field.2.depth ≤ limit) :
    ∀ field ∈ fields, field.Answer limit (OrderedMap.lookupEntry field.name written) := by
  induction fields generalizing written with
  | nil => exact List.forall_mem_nil _
  | cons field rest ih =>
      obtain ⟨hnew, hrest⟩ := List.nodup_cons.mp hnodup
      have hother : ∀ {field' : FormField PlanForm}, field' ∈ rest → field.name ≠ field'.name :=
        fun hmem heq => hnew (List.mem_map.mpr ⟨_, hmem, heq.symm⟩)
      cases h with
      | leave homittable hwritten =>
          have hnone : OrderedMap.lookupEntry field.name written = none :=
            (OrderedMap.lookupEntry_eq_none_iff field.name written).mpr
              fun hmem => hnew (hwritten.keys.subset hmem)
          refine List.forall_mem_cons.mpr ⟨?_, ih hwritten hrest hdepth⟩
          rw [hnone]
          exact homittable
      | write hvalue hwritten =>
          obtain ⟨hfirst, hlater⟩ := List.forall_mem_cons.mp hdepth
          refine List.forall_mem_cons.mpr ⟨?_, fun field' hmem => ?_⟩
          · simpa [OrderedMap.lookupEntry] using ⟨hvalue, hfirst⟩
          · simpa [OrderedMap.lookupEntry, hother hmem] using ih hwritten hrest hlater field' hmem

/-- In every writing of a record each field is found, or left out if it may be. -/
theorem readSparse?_of_writtenAs {fields : List (FormField PlanForm)} {json : Json} {limit : Nat}
    (hnodup : (fields.map (·.name)).Nodup) (h : (PlanForm.record fields).WrittenAs json)
    (hdepth : json.depth ≤ limit + 1) :
    ∃ answer : String → Option Json,
      readSparse? (fields.map (·.name)) (Tree.ofJson json) =
          some (fields.map fun field => (answer field.name).map Tree.ofJson) ∧
        ∀ field ∈ fields, field.Answer limit (answer field.name) := by
  cases h with
  | @record _ written added all hwritten hadded hperm =>
      have hfield := Json.depth_object_le_succ_iff.mp hdepth
      have hkeys := hwritten.keys.nodup hnodup
      have hfilter : ∀ name ∈ fields.map (·.name),
          (all.filter (·.1 == name)).Perm (written.filter (·.1 == name)) := by
        intro name hname
        have hnone : added.filter (·.1 == name) = [] := by
          simp only [List.filter_eq_nil_iff, beq_iff_eq]
          rintro field hmem rfl
          exact hadded field hmem hname
        have hboth := hperm.filter (·.1 == name)
        rwa [List.filter_append, hnone, List.append_nil] at hboth
      refine ⟨fun name => OrderedMap.lookupEntry name written, ?_, ?_⟩
      · have hnames : ((Tree.ofFields all).all fun field => field.1.isSome) = true := by
          simp [Tree.ofFields_eq_map]
        rw [Tree.ofJson, readSparse?, if_pos hnames, fields?_ofFields hkeys hfilter, List.map_map]
        rfl
      · refine hwritten.answer hnodup fun field hmem => hfield field ?_
        exact hperm.mem_iff.mpr (List.mem_append_left added hmem)

theorem PlanForm.WrittenAs.eq_object {fields : List (FormField PlanForm)} {json : Json}
    (h : (PlanForm.record fields).WrittenAs json) : ∃ all, json = .object all := by
  cases h
  exact ⟨_, rfl⟩

theorem present?_map_some {α : Type} (tree : α → Tree) (items : List α) :
    present? (items.map fun item => some (tree item)) = some (items.map tree) := by
  induction items with
  | nil => rfl
  | cons item rest ih => rw [List.map_cons, present?, ih, Option.map_some, List.map_cons]

theorem readRecord?_of_writtenAs {fields : List (FormField PlanForm)} {json : Json} {limit : Nat}
    (hnodup : (fields.map (·.name)).Nodup) (hrequired : ∀ field ∈ fields, field.omittable = false)
    (h : (PlanForm.record fields).WrittenAs json) (hdepth : json.depth ≤ limit + 1) :
    ∃ value : String → Json,
      readRecord? (fields.map (·.name)) (Tree.ofJson json) =
          some (fields.map fun field => Tree.ofJson (value field.name)) ∧
        ∀ field ∈ fields, field.content.WrittenAs (value field.name) ∧
          (value field.name).depth ≤ limit := by
  obtain ⟨answer, hread, hanswer⟩ := readSparse?_of_writtenAs hnodup h hdepth
  have hsome : ∀ field ∈ fields, ∃ value, answer field.name = some value ∧
      field.content.WrittenAs value ∧ value.depth ≤ limit := by
    intro field hmem
    have hfield := hanswer field hmem
    cases hvalue : answer field.name with
    | none =>
        have homittable : field.omittable = true := by rwa [hvalue] at hfield
        exact absurd homittable (by simp [hrequired field hmem])
    | some value =>
        rw [hvalue] at hfield
        exact ⟨value, rfl, hfield⟩
  refine ⟨fun name => (answer name).getD .null, ?_, fun field hmem => ?_⟩
  · have hfound : fields.map (fun field => (answer field.name).map Tree.ofJson) =
        fields.map fun field => some (Tree.ofJson ((answer field.name).getD .null)) := by
      refine List.map_congr_left fun field hmem => ?_
      obtain ⟨value, hvalue, -⟩ := hsome field hmem
      rw [hvalue, Option.map_some, Option.getD_some]
    rw [readRecord?, hread, Option.bind_some, hfound, present?_map_some]
  · obtain ⟨value, hvalue, hwritten⟩ := hsome field hmem
    simpa [hvalue] using hwritten

theorem lookupEntry_fieldsToJson {fields : List (FormField PlanForm)}
    (hnodup : (fields.map (·.name)).Nodup) {field : FormField PlanForm} (hmem : field ∈ fields) :
    OrderedMap.lookupEntry field.name (fieldsToJson fields) = some field.content.toJson := by
  have hkeys : (fieldsToJson fields).map Prod.fst = fields.map (·.name) := by
    rw [fieldsToJson_eq_map, List.map_map]
    rfl
  rw [OrderedMap.lookupEntry_eq_some_iff (hkeys ▸ hnodup), fieldsToJson_eq_map]
  exact List.mem_map_of_mem hmem

/-- In the full writing of a record the full writing of each field is found. -/
theorem readSparse?_toJson {fields : List (FormField PlanForm)}
    (hnodup : (fields.map (·.name)).Nodup) :
    readSparse? (fields.map (·.name)) (Tree.ofJson (PlanForm.record fields).toJson) =
      some (fields.map fun field => some (Tree.ofJson field.content.toJson)) := by
  have hkeys := (fieldsWrittenAs_fieldsToJson fields).keys.nodup hnodup
  have hnames : ((Tree.ofFields (fieldsToJson fields)).all fun field => field.1.isSome) = true := by
    simp [Tree.ofFields_eq_map]
  rw [PlanForm.toJson, Tree.ofJson, readSparse?, if_pos hnames,
    fields?_ofFields hkeys fun _ _ => List.Perm.refl _, List.map_map]
  refine congrArg some (List.map_congr_left fun field hmem => ?_)
  rw [Function.comp_apply, lookupEntry_fieldsToJson hnodup hmem, Option.map_some]

/-- A record needs one level more than its fields. -/
theorem depth_record_le_succ_iff {fields : List (FormField PlanForm)} {limit : Nat} :
    (PlanForm.record fields).toJson.depth ≤ limit + 1 ↔
      ∀ field ∈ fields, field.content.toJson.depth ≤ limit := by
  rw [PlanForm.toJson, Json.depth_object_le_succ_iff, fieldsToJson_eq_map, List.forall_mem_map]

/-! ## Readers -/

theorem Tree.ofItems_eq_map (items : List Json) :
    Tree.ofItems items = items.map Tree.ofJson := by
  induction items with
  | nil => rfl
  | cons item rest ih => rw [Tree.ofItems, ih, List.map_cons]

theorem itemsWrittenAs_map {α : Type} {form : α → PlanForm} {value : α → Json} {list : List α}
    (h : ∀ item ∈ list, (form item).WrittenAs (value item)) :
    ItemsWrittenAs (list.map form) (list.map value) := by
  induction list with
  | nil => exact .nil
  | cons item rest ih =>
      obtain ⟨hitem, hrest⟩ := List.forall_mem_cons.mp h
      exact .cons hitem (ih hrest)

theorem PlanForm.ItemsWrittenAs.length_ofItems {forms : List PlanForm} {values : List Json}
    (h : ItemsWrittenAs forms values) : (Tree.ofItems values).length = forms.length := by
  induction forms generalizing values with
  | nil =>
      cases h
      rfl
  | cons form rest ih =>
      cases h with
      | cons _ hrest => simp [Tree.ofItems, ih hrest]

/-- The reader takes every writing of the form to something good, and does not
read the full writing with fewer levels than it has. -/
structure Recovers {α : Type} (read : Nat → Tree → Option α) (form : PlanForm)
    (good : α → Prop) : Prop where
  reads : ∀ {limit : Nat} {json : Json}, form.WrittenAs json → json.depth ≤ limit →
    ∃ value, read limit (Tree.ofJson json) = some value ∧ good value
  depth_le : ∀ {limit : Nat} {value : α}, read limit (Tree.ofJson form.toJson) = some value →
    form.toJson.depth ≤ limit

/-- What is read of the full writing is good. -/
theorem Recovers.of_read {α : Type} {read : Nat → Tree → Option α} {form : PlanForm}
    {good : α → Prop} (h : Recovers read form good) {limit : Nat} {value : α}
    (hread : read limit (Tree.ofJson form.toJson) = some value) :
    form.toJson.depth ≤ limit ∧ good value := by
  have hdepth := h.depth_le hread
  obtain ⟨value', hvalue, hgood⟩ := h.reads form.writtenAs_toJson hdepth
  obtain rfl : value' = value := Option.some.inj (hvalue.symm.trans hread)
  exact ⟨hdepth, hgood⟩

/-- The same for values that stand one after the other. -/
structure RecoversParts {α : Type} (read : Nat → List Tree → Option α) (forms : List PlanForm)
    (good : α → Prop) : Prop where
  reads : ∀ {limit : Nat} {values : List Json}, ItemsWrittenAs forms values →
    (∀ value ∈ values, value.depth ≤ limit) →
      ∃ result, read limit (Tree.ofItems values) = some result ∧ good result
  depth_le : ∀ {limit : Nat} {result : α},
    read limit (Tree.ofItems (itemsToJson forms)) = some result →
      ∀ form ∈ forms, form.toJson.depth ≤ limit

section Parts

variable {α β σ : Type}

/-- Reads the first of several parts, and then the others. -/
def readThen (first : Nat → σ → Option α) (others : α → Nat → List σ → Option β) :
    Nat → List σ → Option β
  | limit, part :: rest => (first limit part).bind fun value => others value limit rest
  | _, [] => none

/-- The answer once all parts are read. -/
def readEnd (result : β) : Nat → List σ → Option β :=
  fun _ _ => some result

@[simp] theorem readThen_cons (first : Nat → σ → Option α)
    (others : α → Nat → List σ → Option β) (limit : Nat) (part : σ) (rest : List σ) :
    readThen first others limit (part :: rest) =
      (first limit part).bind fun value => others value limit rest := rfl

@[simp] theorem readEnd_apply (result : β) (limit : Nat) (rest : List σ) :
    readEnd result limit rest = some result := rfl

namespace RecoversParts

variable {good : β → Prop}

theorem nil (result : β) (h : good result) : RecoversParts (readEnd result) [] good where
  reads := fun _ _ => ⟨result, rfl, h⟩
  depth_le _ := List.forall_mem_nil _

theorem cons {first : Nat → Tree → Option α} {others : α → Nat → List Tree → Option β}
    {form : PlanForm} {forms : List PlanForm} {goodFirst : α → Prop}
    (hfirst : Recovers first form goodFirst)
    (hothers : ∀ value, goodFirst value → RecoversParts (others value) forms good) :
    RecoversParts (readThen first others) (form :: forms) good where
  reads := by
    intro limit values hwritten hdepth
    cases hwritten with
    | cons hvalue hvalues =>
        obtain ⟨hdepth, hdepths⟩ := List.forall_mem_cons.mp hdepth
        obtain ⟨value, hread, hgood⟩ := hfirst.reads hvalue hdepth
        obtain ⟨result, hreads, hresult⟩ := (hothers value hgood).reads hvalues hdepths
        refine ⟨result, ?_, hresult⟩
        rw [Tree.ofItems, readThen, hread, Option.bind_some, hreads]
  depth_le := by
    intro limit result hread
    obtain ⟨value, hvalue, hothersRead⟩ := Option.bind_eq_some_iff.mp hread
    obtain ⟨hdepth, hgood⟩ := hfirst.of_read hvalue
    exact List.forall_mem_cons.mpr ⟨hdepth, (hothers value hgood).depth_le hothersRead⟩

theorem congr {read read' : Nat → List Tree → Option β} {forms : List PlanForm}
    (h : RecoversParts read forms good)
    (heq : ∀ limit trees, trees.length = forms.length → read' limit trees = read limit trees) :
    RecoversParts read' forms good where
  reads := by
    intro limit values hwritten hdepth
    rw [heq limit _ hwritten.length_ofItems]
    exact h.reads hwritten hdepth
  depth_le := by
    intro limit result hread
    rw [heq limit _ (itemsWrittenAs_itemsToJson forms).length_ofItems] at hread
    exact h.depth_le hread

theorem map {read : Nat → List Tree → Option α} {forms : List PlanForm} {goodPart : α → Prop}
    {make : α → β} (h : RecoversParts read forms goodPart)
    (hmake : ∀ value, goodPart value → good (make value)) :
    RecoversParts (fun limit trees => (read limit trees).map make) forms good where
  reads := by
    intro limit values hwritten hdepth
    obtain ⟨value, hvalue, hgood⟩ := h.reads hwritten hdepth
    exact ⟨make value, by rw [hvalue, Option.map_some], hmake value hgood⟩
  depth_le := by
    intro limit result hread
    obtain ⟨value, hvalue, -⟩ := Option.map_eq_some_iff.mp hread
    exact h.depth_le hvalue

theorem readAll?_nil {item : Nat → Tree → Option α} {good : List α → Prop} (h : good []) :
    RecoversParts (fun limit => readAll? (item limit)) [] good :=
  (nil [] h).congr fun _ _ hlength => by rw [List.eq_nil_of_length_eq_zero hlength]; rfl

theorem readAll?_cons {item : Nat → Tree → Option α} {form : PlanForm} {forms : List PlanForm}
    {goodItem : α → Prop} {goodRest good : List α → Prop} (hitem : Recovers item form goodItem)
    (hrest : RecoversParts (fun limit => readAll? (item limit)) forms goodRest)
    (hgood : ∀ value values, goodItem value → goodRest values → good (value :: values)) :
    RecoversParts (fun limit => readAll? (item limit)) (form :: forms) good := by
  have hboth : RecoversParts (readThen item fun value limit trees =>
      (readAll? (item limit) trees).map (value :: ·)) (form :: forms) good :=
    cons hitem fun value hvalue => hrest.map fun values => hgood value values hvalue
  refine hboth.congr fun limit trees hlength => ?_
  obtain ⟨tree, rest, rfl⟩ := List.exists_cons_of_length_eq_add_one hlength
  rw [readAll?, readThen]
  cases item limit tree <;> cases readAll? (item limit) rest <;> rfl

end RecoversParts

end Parts

namespace Recovers

variable {α β : Type} {read : Nat → Tree → Option β}

theorem imp {form : PlanForm} {good good' : β → Prop} (h : Recovers read form good)
    (himp : ∀ value, good value → good' value) : Recovers read form good' where
  reads := by
    intro limit json hwritten hdepth
    obtain ⟨value, hvalue, hgood⟩ := h.reads hwritten hdepth
    exact ⟨value, hvalue, himp value hgood⟩
  depth_le := h.depth_le

/-! ## Values -/

theorem plain {value : Json} {good : β → Prop}
    (hreads : ∀ {limit}, value.depth ≤ limit →
      ∃ result, read limit (Tree.ofJson value) = some result ∧ good result)
    (hdepth : ∀ {limit result}, read limit (Tree.ofJson value) = some result →
      value.depth ≤ limit) :
    Recovers read (.plain value) good where
  reads := by
    intro limit json hwritten
    cases hwritten
    exact hreads
  depth_le := hdepth

theorem string (text : String) :
    Recovers (fun _ => Tree.string?) (.plain (.string text)) (· = text) :=
  plain (fun _ => ⟨text, rfl, rfl⟩) fun _ => Nat.zero_le _

theorem bool (value : Bool) :
    Recovers (fun _ => Tree.bool?) (.plain (.bool value)) (· = value) :=
  plain (fun _ => ⟨value, rfl, rfl⟩) fun _ => Nat.zero_le _

theorem natural (value : Nat) :
    Recovers (fun _ => Tree.natural?) (.plain (.ofNat value)) (· = value) :=
  plain (fun _ => ⟨value, rfl, rfl⟩) fun _ => Nat.zero_le _

theorem name {all : List α} {name : α → String} {variant : α}
    (h : named? all name (name variant) = some variant) :
    Recovers (readName? all name) (.plain (.string (name variant))) (· = variant) := by
  refine plain (fun _ => ⟨variant, ?_, rfl⟩) fun _ => Nat.zero_le _
  simpa [Tree.ofJson, readName?] using h

/-- A constant is recovered up to sameness. -/
theorem constant (value : Json) :
    Recovers (fun limit tree => tree.toJson? limit) (.plain value) fun read =>
      value.same read = true := by
  refine plain (fun hdepth => ?_) Json.depth_le_of_toJson?
  obtain ⟨read, hread, hcanonical⟩ := Json.toJson?_ofJson value hdepth
  exact ⟨read, hread, Json.same_iff.mpr hcanonical.symm⟩

/-! ## Arrays, variants and records -/

theorem map {inner : Nat → Tree → Option α} {form : PlanForm} {goodInner : α → Prop}
    {good : β → Prop} {make : α → β} (h : Recovers inner form goodInner)
    (hmake : ∀ value, goodInner value → good (make value)) :
    Recovers (fun limit tree => (inner limit tree).map make) form good where
  reads := by
    intro limit json hwritten hdepth
    obtain ⟨value, hvalue, hgood⟩ := h.reads hwritten hdepth
    exact ⟨make value, by rw [hvalue, Option.map_some], hmake value hgood⟩
  depth_le := by
    intro limit result hread
    obtain ⟨value, hvalue, -⟩ := Option.map_eq_some_iff.mp hread
    exact h.depth_le hvalue

theorem list {items : Nat → List Tree → Option β} {forms : List PlanForm} {good : β → Prop}
    (h : RecoversParts items forms good) (hzero : ∀ trees, read 0 (.array trees) = none)
    (hsucc : ∀ limit trees, trees.length = forms.length →
      read (limit + 1) (.array trees) = items limit trees) :
    Recovers read (.list forms) good where
  reads := by
    intro limit json hwritten hdepth
    cases hwritten with
    | @list _ values hwritten =>
        cases limit with
        | zero => exact absurd hdepth (Nat.not_le.mpr (Json.depth_array_pos values))
        | succ limit =>
            obtain ⟨result, hread, hgood⟩ :=
              h.reads hwritten (Json.depth_array_le_succ_iff.mp hdepth)
            refine ⟨result, ?_, hgood⟩
            rw [Tree.ofJson, hsucc limit _ hwritten.length_ofItems, hread]
  depth_le := by
    intro limit result hread
    cases limit with
    | zero =>
        rw [PlanForm.toJson, Tree.ofJson, hzero] at hread
        contradiction
    | succ limit =>
        rw [PlanForm.toJson, Tree.ofJson,
          hsucc limit _ (itemsWrittenAs_itemsToJson forms).length_ofItems] at hread
        rw [PlanForm.toJson, Json.depth_array_le_succ_iff, itemsToJson_eq_map]
        exact List.forall_mem_map.mpr (h.depth_le hread)

theorem variant {inner : Nat → Tree → Option β} {form : PlanForm} {good : β → Prop}
    {name : String} (h : Recovers inner form good)
    (hzero : ∀ content, read 0 (.object [(some name, content)]) = none)
    (hsucc : ∀ limit content,
      read (limit + 1) (.object [(some name, content)]) = inner limit content) :
    Recovers read (.variant name form) good where
  reads := by
    intro limit json hwritten hdepth
    cases hwritten with
    | @variant _ _ value hwritten =>
        cases limit with
        | zero => exact absurd hdepth (Nat.not_le.mpr (Json.depth_object_pos _))
        | succ limit =>
            have hvalue := Json.depth_object_le_succ_iff.mp hdepth (name, value) (by simp)
            obtain ⟨result, hread, hgood⟩ := h.reads hwritten hvalue
            refine ⟨result, ?_, hgood⟩
            rw [Json.variant, Tree.ofJson, Tree.ofFields, Tree.ofFields, hsucc, hread]
  depth_le := by
    intro limit result hread
    rw [PlanForm.toJson, Json.variant, Tree.ofJson, Tree.ofFields, Tree.ofFields] at hread
    cases limit with
    | zero =>
        rw [hzero] at hread
        contradiction
    | succ limit =>
        rw [hsucc] at hread
        simpa [Json.variant, Json.depth_object_le_succ_iff] using h.depth_le hread

/-- A variant whose reader goes by the name of the variant. -/
theorem named {all : List α} {name : α → String} {inner : Nat → Tree → Option β}
    {form : α} {content : PlanForm} {good : β → Prop} (h : Recovers inner content good)
    (hname : named? all name (name form) = some form)
    (hzero : ∀ content, read 0 (.object [(some (name form), content)]) = none)
    (hsucc : ∀ limit tree content, readVariant? all name tree = some (form, content) →
      read (limit + 1) tree = inner limit content) :
    Recovers read (.variant (name form) content) good :=
  h.variant hzero fun limit content => hsucc limit _ content (by
    rw [readVariant?, hname, Option.map_some])

/-- The fields of a record are read as parts, in the order of their names. -/
theorem record {parts : Nat → List Tree → Option β} {fields : List (FormField PlanForm)}
    {good : β → Prop} (hnodup : (fields.map (·.name)).Nodup)
    (hrequired : ∀ field ∈ fields, field.omittable = false)
    (h : RecoversParts parts (fields.map (·.content)) good)
    (hzero : ∀ fields, read 0 (.object fields) = none)
    (hsucc : ∀ limit trees (value : FormField PlanForm → Tree),
      readRecord? (fields.map (·.name)) (.object trees) = some (fields.map value) →
        read (limit + 1) (.object trees) = parts limit (fields.map value)) :
    Recovers read (.record fields) good where
  reads := by
    intro limit json hwritten hdepth
    obtain ⟨all, rfl⟩ := hwritten.eq_object
    cases limit with
    | zero => exact absurd hdepth (Nat.not_le.mpr (Json.depth_object_pos all))
    | succ limit =>
        obtain ⟨value, hvalue, hvalues⟩ :=
          readRecord?_of_writtenAs hnodup hrequired hwritten hdepth
        have hitems := itemsWrittenAs_map fun field hmem => (hvalues field hmem).1
        obtain ⟨result, hread, hgood⟩ :=
          h.reads hitems (List.forall_mem_map.mpr fun field hmem => (hvalues field hmem).2)
        refine ⟨result, ?_, hgood⟩
        rw [Tree.ofJson, hsucc limit _ _ hvalue, ← hread, Tree.ofItems_eq_map, List.map_map]
        rfl
  depth_le := by
    intro limit result hread
    cases limit with
    | zero =>
        rw [PlanForm.toJson, Tree.ofJson, hzero] at hread
        contradiction
    | succ limit =>
        have hrecord : readRecord? (fields.map (·.name))
            (Tree.ofJson (PlanForm.record fields).toJson) =
              some (fields.map fun field => Tree.ofJson field.content.toJson) := by
          rw [readRecord?, readSparse?_toJson hnodup, Option.bind_some, present?_map_some]
        have hparts : parts limit (Tree.ofItems (itemsToJson (fields.map (·.content)))) =
            some result := by
          rw [← hread, PlanForm.toJson, Tree.ofJson, hsucc limit _ _ hrecord, itemsToJson_eq_map,
            Tree.ofItems_eq_map, List.map_map, List.map_map]
          rfl
        exact depth_record_le_succ_iff.mpr (List.forall_mem_map.mp (h.depth_le hparts))

/-! ## Fields that may be left out -/

theorem optional_none {item : Nat → Tree → Option α} :
    Recovers (fun limit tree => readOptional? (item limit) (some tree)) (.plain .null)
      (· = none) :=
  plain (fun _ => ⟨none, rfl, rfl⟩) fun _ => Nat.zero_le _

theorem optional_some {item : Nat → Tree → Option α} {form : PlanForm} {good : α → Prop}
    (h : Recovers item form good) (hnull : ∀ limit, item limit .null = none) :
    Recovers (fun limit tree => readOptional? (item limit) (some tree)) form
      (fun result => ∃ value, result = some value ∧ good value) := by
  have hread : ∀ limit tree,
      readOptional? (item limit) (some tree) = (item limit tree).map some ∨ tree = .null := by
    intro limit tree
    cases tree with
    | null => exact Or.inr rfl
    | _ => exact Or.inl rfl
  have hmap : Recovers (fun limit tree => (item limit tree).map some) form
      (fun result => ∃ value, result = some value ∧ good value) :=
    h.map fun value hvalue => ⟨value, rfl, hvalue⟩
  refine ⟨fun {limit json} hwritten hdepth => ?_, fun {limit result} hresult => ?_⟩
  · obtain ⟨result, hresult, hgood⟩ := hmap.reads hwritten hdepth
    rcases hread limit (Tree.ofJson json) with heq | hnone
    · exact ⟨result, heq ▸ hresult, hgood⟩
    · simp [hnone, hnull] at hresult
  · rcases hread limit (Tree.ofJson form.toJson) with heq | hnone
    · exact hmap.depth_le (heq ▸ hresult)
    · rw [Json.depth, hnone]
      exact Nat.zero_le limit

end Recovers

/-- A reader of a field that may be left out recovers its value, be it there or
not. -/
structure RecoversField {α : Type} (read : Nat → Option Tree → Option α)
    (field : FormField PlanForm) (good : α → Prop) : Prop where
  present : Recovers (fun limit tree => read limit (some tree)) field.content good
  absent : field.omittable = true → ∀ limit, ∃ value, read limit none = some value ∧ good value

/-- The same for fields that stand one after the other. -/
structure RecoversFields {α : Type} (read : Nat → List (Option Tree) → Option α)
    (fields : List (FormField PlanForm)) (good : α → Prop) : Prop where
  reads : ∀ {limit : Nat} {answer : String → Option Json},
    (∀ field ∈ fields, field.Answer limit (answer field.name)) →
      ∃ result, read limit (fields.map fun field => (answer field.name).map Tree.ofJson) =
        some result ∧ good result
  depth_le : ∀ {limit : Nat} {result : α},
    read limit (fields.map fun field => some (Tree.ofJson field.content.toJson)) = some result →
      ∀ field ∈ fields, field.content.toJson.depth ≤ limit

namespace RecoversFields

variable {α β : Type} {good : β → Prop}

theorem nil (result : β) (h : good result) : RecoversFields (readEnd result) [] good where
  reads := fun _ => ⟨result, rfl, h⟩
  depth_le _ := List.forall_mem_nil _

theorem cons {first : Nat → Option Tree → Option α}
    {others : α → Nat → List (Option Tree) → Option β} {field : FormField PlanForm}
    {fields : List (FormField PlanForm)} {goodFirst : α → Prop}
    (hfirst : RecoversField first field goodFirst)
    (hothers : ∀ value, goodFirst value → RecoversFields (others value) fields good) :
    RecoversFields (readThen first others) (field :: fields) good where
  reads := by
    intro limit answer hanswer
    obtain ⟨hfield, hfields⟩ := List.forall_mem_cons.mp hanswer
    have hread : ∃ value, first limit ((answer field.name).map Tree.ofJson) = some value ∧
        goodFirst value := by
      cases hvalue : answer field.name with
      | none => exact hfirst.absent (by rwa [hvalue] at hfield) limit
      | some value =>
          rw [hvalue] at hfield
          exact hfirst.present.reads hfield.1 hfield.2
    obtain ⟨value, hvalue, hgood⟩ := hread
    obtain ⟨result, hreads, hresult⟩ := (hothers value hgood).reads hfields
    refine ⟨result, ?_, hresult⟩
    rw [List.map_cons, readThen_cons, hvalue, Option.bind_some, hreads]
  depth_le := by
    intro limit result hread
    obtain ⟨value, hvalue, hothersRead⟩ := Option.bind_eq_some_iff.mp hread
    obtain ⟨hdepth, hgood⟩ := hfirst.present.of_read hvalue
    exact List.forall_mem_cons.mpr ⟨hdepth, (hothers value hgood).depth_le hothersRead⟩

end RecoversFields

/-- A record in which fields may be left out. -/
theorem Recovers.sparse {β : Type} {read : Nat → Tree → Option β}
    {parts : Nat → List (Option Tree) → Option β} {fields : List (FormField PlanForm)}
    {good : β → Prop} (hnodup : (fields.map (·.name)).Nodup)
    (h : RecoversFields parts fields good) (hzero : ∀ fields, read 0 (.object fields) = none)
    (hsucc : ∀ limit trees (value : FormField PlanForm → Option Tree),
      readSparse? (fields.map (·.name)) (.object trees) = some (fields.map value) →
        read (limit + 1) (.object trees) = parts limit (fields.map value)) :
    Recovers read (.record fields) good where
  reads := by
    intro limit json hwritten hdepth
    obtain ⟨all, rfl⟩ := hwritten.eq_object
    cases limit with
    | zero => exact absurd hdepth (Nat.not_le.mpr (Json.depth_object_pos all))
    | succ limit =>
        obtain ⟨answer, hfields, hanswer⟩ := readSparse?_of_writtenAs hnodup hwritten hdepth
        obtain ⟨result, hread, hgood⟩ := h.reads hanswer
        refine ⟨result, ?_, hgood⟩
        rw [Tree.ofJson, hsucc limit _ _ hfields, hread]
  depth_le := by
    intro limit result hread
    rw [PlanForm.toJson, Tree.ofJson] at hread
    cases limit with
    | zero =>
        rw [hzero] at hread
        contradiction
    | succ limit =>
        rw [hsucc limit _ _ (readSparse?_toJson hnodup)] at hread
        exact depth_record_le_succ_iff.mpr (h.depth_le hread)

end DocumentQuery
