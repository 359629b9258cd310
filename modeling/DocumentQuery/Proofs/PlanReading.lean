import DocumentQuery.Block.Equality
import DocumentQuery.PlanFile.Read
import DocumentQuery.Proofs.RecordReading
/-!
# Plans are read as they were written

Every writing of the form of a block is read to a block that is the same
(`Block.recovers`), be it a text or not. The proof goes through the parts of a
block; each of them says which reader recovers it from its form.
-/

namespace DocumentQuery

/-! ## Names -/

theorem ValueType.named?_name (type : ValueType) :
    named? ValueType.all ValueType.name type.name = some type := by
  cases type <;> rfl

theorem Operator.named?_name (operator : Operator) :
    named? Operator.all Operator.name operator.name = some operator := by
  cases operator <;> rfl

theorem UnaryOperator.named?_name (operator : UnaryOperator) :
    named? UnaryOperator.all UnaryOperator.name operator.name = some operator := by
  cases operator <;> rfl

theorem SubqueryKind.named?_name (kind : SubqueryKind) :
    named? SubqueryKind.all SubqueryKind.name kind.name = some kind := by
  cases kind <;> rfl

theorem Expr.Form.named?_name (form : Expr.Form) :
    named? Expr.Form.all Expr.Form.name form.name = some form := by
  cases form <;> rfl

theorem Projected.Form.named?_name (form : Projected.Form) :
    named? Projected.Form.all Projected.Form.name form.name = some form := by
  cases form <;> rfl

theorem Payload.Form.named?_name (form : Payload.Form) :
    named? Payload.Form.all Payload.Form.name form.name = some form := by
  cases form <;> rfl

theorem ValueType.recovers (type : ValueType) :
    Recovers ValueType.read? (.plain type.toJson) (· = type) :=
  .name type.named?_name

/-! ## Positions and keys -/

theorem Step.recovers (step : Step) : Recovers Step.read? step.planForm (· = step) := by
  cases step with
  | field name =>
      have hname : Recovers (fun _ tree => tree.string?.map Step.field) (.plain (.string name))
          (· = .field name) :=
        (Recovers.string name).map fun _ h => congrArg Step.field h
      exact hname.variant (fun _ => rfl) fun _ _ => rfl
  | index place =>
      have hplace : Recovers (fun _ tree => tree.natural?.map Step.index) (.plain (.ofNat place))
          (· = .index place) :=
        (Recovers.natural place).map fun _ h => congrArg Step.index h
      exact hplace.variant (fun _ => rfl) fun _ _ => rfl

theorem recoversParts_map {α : Type} {read : Nat → Tree → Option α} {form : α → PlanForm}
    (h : ∀ item, Recovers read (form item) (· = item)) (items : List α) :
    RecoversParts (fun limit => readAll? (read limit)) (items.map form) (· = items) := by
  induction items with
  | nil => exact .readAll?_nil rfl
  | cons item rest ih =>
      exact .readAll?_cons (h item) ih fun _ _ hitem hrest => by rw [hitem, hrest]

theorem Member.recovers (member : Member) :
    Recovers Member.read? member.planForm (· = member) := by
  have hsteps := recoversParts_map Step.recovers member.steps
  have hmember : RecoversParts
      (fun limit trees => (readAll? (Step.read? limit) trees).map Member.mk)
      (member.steps.map Step.planForm) (· = member) :=
    hsteps.map fun _ h => congrArg Member.mk h
  exact .list hmember (fun _ => rfl) fun _ _ _ => rfl

theorem recovers_propertyForm (name : String) :
    Recovers readProperty? (propertyForm name) (· = name) := by
  have hparts : RecoversParts (readThen (fun _ => Tree.string?) readEnd)
      [.plain (.string name)] (· = name) :=
    .cons (.string name) fun name' hname => .nil name' hname
  refine .record (by simp) (by simp) hparts (fun _ => rfl) fun limit tree value hrecord => ?_
  simp only [List.map_cons, List.map_nil, FormField.name_required] at hrecord
  simp only [readProperty?, hrecord]
  exact (Option.bind_fun_some _).symm

theorem recovers_binding (entry : Member × Nat) :
    Recovers (readPair? fun _ => Tree.natural?)
      (.list [entry.1.planForm, .plain (.ofNat entry.2)]) (· = entry) := by
  refine .list (.cons entry.1.recovers fun member hmember =>
    .cons (.natural entry.2) fun number hnumber =>
      .nil (member, number) (Prod.ext hmember hnumber)) (fun _ => rfl) ?_
  intro limit trees hlength
  obtain ⟨member, number, rfl⟩ := List.length_eq_two.mp hlength
  simp only [readPair?, readThen, readEnd]
  cases Member.read? limit member <;> cases number.natural? <;> rfl

theorem recovers_bindingsForm (bindings : Mapping Nat) :
    Recovers (readMapping? fun _ => Tree.natural?) (bindingsForm bindings) (· = bindings) := by
  have hentries := recoversParts_map recovers_binding bindings.entries
  have hbindings : RecoversParts
      (fun limit trees => (readAll? (readPair? (fun _ => Tree.natural?) limit) trees).map
        OrderedMap.mk) _ (· = bindings) :=
    hentries.map fun _ h => congrArg OrderedMap.mk h
  exact .list hbindings (fun _ => rfl) fun _ _ _ => rfl

theorem recovers_key (key : String × String) :
    Recovers readKey? (.list [propertyForm key.1, .plain (.string key.2)]) (· = key) := by
  refine .list (.cons (recovers_propertyForm key.1) fun property hproperty =>
    .cons (.string key.2) fun parameter hparameter =>
      .nil (property, parameter) (Prod.ext hproperty hparameter)) (fun _ => rfl) ?_
  intro limit trees hlength
  obtain ⟨property, parameter, rfl⟩ := List.length_eq_two.mp hlength
  simp only [readKey?, readThen, readEnd]
  cases readProperty? limit property <;> cases parameter.string? <;> rfl

theorem recovers_keys (keys : List (String × String)) :
    Recovers readKeys? (.list (keys.map fun key =>
      .list [propertyForm key.1, .plain (.string key.2)])) (· = keys) :=
  .list (recoversParts_map recovers_key keys) (fun _ => rfl) fun _ _ _ => rfl

theorem PointRead.recovers (pointRead : PointRead) :
    Recovers PointRead.read? pointRead.planForm (· = pointRead) := by
  refine .record (by simp) (by simp) (.cons (.string pointRead.entityType) fun entityType htype =>
    .cons (recovers_keys pointRead.keys) fun keys hkeys =>
      .nil (PointRead.mk entityType keys) (by rw [htype, hkeys])) (fun _ => rfl) ?_
  intro limit tree value hrecord
  simp only [List.map_cons, List.map_nil, FormField.name_required] at hrecord ⊢
  simp only [PointRead.read?, hrecord, readThen, readEnd]
  cases (value _).string? <;> cases readKeys? limit (value _) <;> rfl

theorem recovers_texts {first second a b : String} (hne : first ≠ second) :
    Recovers (readTexts? first second)
      (.record [.required first (.plain (.string a)), .required second (.plain (.string b))])
      (· = (a, b)) := by
  refine .record (by simpa using hne) (by simp) (.cons (.string a) fun a' ha =>
    .cons (.string b) fun b' hb => .nil (a', b') (by rw [ha, hb])) (fun _ => rfl) ?_
  intro limit tree value hrecord
  simp only [List.map_cons, List.map_nil, FormField.name_required] at hrecord ⊢
  simp only [readTexts?, hrecord, readThen, readEnd]
  cases (value _).string? <;> cases (value _).string? <;> rfl

/-! ## Expressions and blocks -/

section Reading

variable {inText : Bool}

theorem Expr.recovers_variant {form : Expr.Form} {content : PlanForm} {good : Expr → Prop}
    (h : Recovers (Expr.readContent? inText form) content good) :
    Recovers (Expr.read? inText) (.variant form.name content) good :=
  h.named form.named?_name (fun _ => rfl) fun _ _ _ hvariant => by rw [Expr.read?, hvariant]

/-- An expression whose content is a record. -/
theorem Expr.recovers_record {form : Expr.Form} {fields : List (FormField PlanForm)}
    {parts : Nat → List Tree → Option Expr} {good : Expr → Prop}
    (hnodup : (fields.map (·.name)).Nodup) (hrequired : ∀ field ∈ fields, field.omittable = false)
    (h : RecoversParts parts (fields.map (·.content)) good)
    (hzero : ∀ fields, Expr.readContent? inText form 0 (.object fields) = none)
    (hsucc : ∀ limit trees (value : FormField PlanForm → Tree),
      readRecord? (fields.map (·.name)) (.object trees) = some (fields.map value) →
        Expr.readContent? inText form (limit + 1) (.object trees) =
          parts limit (fields.map value)) :
    Recovers (Expr.read? inText) (form.record fields) good :=
  Expr.recovers_variant (.record hnodup hrequired h hzero hsucc)

theorem Projected.recovers_scalar {value : Expr}
    (h : Recovers (Expr.read? inText) value.planForm fun read => value.same read = true) :
    Recovers (Projected.read? inText) (Projected.scalar value).planForm
      fun read => (Projected.scalar value).same read = true := by
  have hmap : Recovers (fun limit tree => (Expr.read? inText limit tree).map Projected.scalar)
      value.planForm fun read => (Projected.scalar value).same read = true :=
    h.map fun value' hvalue => by simpa [Projected.same] using hvalue
  exact hmap.named (Projected.Form.named?_name _) (fun _ => rfl) fun _ _ _ hvariant => by
    rw [Projected.read?, hvariant]

theorem Projected.recovers_object {entityType : String} {access : Expr}
    (h : Recovers (Expr.read? inText) access.planForm fun read => access.same read = true) :
    Recovers (Projected.read? inText) (Projected.object entityType access).planForm
      fun read => (Projected.object entityType access).same read = true := by
  have hobject : Recovers (readObject? inText) (.record
      [.required "entity_type" (.plain (.string entityType)), .required "access" access.planForm])
      fun read => (Projected.object entityType access).same read = true := by
    refine .record (by simp) (by simp)
      (.cons (.string entityType) fun entityType' hentity => .cons h fun access' haccess =>
        .nil (Projected.object entityType' access') ?_)
      (fun _ => rfl) fun _ _ _ hrecord => ?_
    · simp [Projected.same, hentity, haccess]
    · simp_all [readObject?]
  exact hobject.named (Projected.Form.named?_name _) (fun _ => rfl) fun _ _ _ hvariant => by
    rw [Projected.read?, hvariant]

theorem recovers_exprs {forms : List PlanForm} {good : List Expr → Prop}
    (h : RecoversParts (fun limit => readAll? (Expr.read? inText limit)) forms good) :
    Recovers (readExprs? inText) (.list forms) good :=
  .list h (fun _ => rfl) fun _ _ _ => rfl

/-! ### Parts of a block -/

theorem recovers_entry {member : Member} {projected : Projected}
    (h : Recovers (Projected.read? inText) projected.planForm
      fun read => projected.same read = true) :
    Recovers (readBinding? inText) (.list [member.planForm, projected.planForm])
      fun read => member = read.1 ∧ projected.same read.2 = true := by
  refine .list (.cons member.recovers fun member' hmember => .cons h fun projected' hprojected =>
    .nil (member', projected') ⟨hmember.symm, hprojected⟩) (fun _ => rfl) ?_
  intro limit trees hlength
  obtain ⟨member, projected, rfl⟩ := List.length_eq_two.mp hlength
  rfl

theorem recovers_column {projected : Projected} {aliasName : String}
    (h : Recovers (Projected.read? inText) projected.planForm
      fun read => projected.same read = true) :
    Recovers (Column.read? inText)
      (.record [.required "expression" projected.planForm,
        .required "alias" (.plain (.string aliasName))])
      fun read => projected.same read.expression = true ∧ aliasName = read.aliasName := by
  refine .record (by simp) (by simp)
    (.cons h fun projected' hprojected => .cons (.string aliasName) fun aliasName' halias =>
      .nil (Column.mk projected' aliasName') ⟨hprojected, halias.symm⟩)
    (fun _ => rfl) fun _ _ _ hrecord => ?_
  simp_all [Column.read?]

theorem recovers_pending {entries : List (Member × Projected)}
    (h : RecoversParts (fun limit => readAll? (readBinding? inText limit)) (entryForms entries)
      fun read => sameEntries entries read = true) :
    Recovers (Projection.read? inText) (Projection.pending ⟨entries⟩).planForm
      fun read => (Projection.pending ⟨entries⟩).same read = true := by
  have hpending : RecoversParts (fun limit trees =>
      (readAll? (readBinding? inText limit) trees).map fun entries => Projection.pending ⟨entries⟩)
      (entryForms entries) fun read => (Projection.pending ⟨entries⟩).same read = true :=
    h.map fun entries' hentries => by simpa [Projection.same] using hentries
  have hcontent : Recovers (readPending? inText) (.list (entryForms entries))
      fun read => (Projection.pending ⟨entries⟩).same read = true :=
    .list hpending (fun _ => rfl) fun _ _ _ => rfl
  exact hcontent.variant (fun _ => rfl) fun _ _ => rfl

theorem recovers_frozen {columns : List Column} {bindings : Mapping Nat}
    (h : RecoversParts (fun limit => readAll? (Column.read? inText limit)) (columnForms columns)
      fun read => sameColumns columns read = true) :
    Recovers (Projection.read? inText) (Projection.frozen columns bindings).planForm
      fun read => (Projection.frozen columns bindings).same read = true := by
  have hcolumns : Recovers (readColumns? inText) (.list (columnForms columns))
      fun read => sameColumns columns read = true :=
    .list h (fun _ => rfl) fun _ _ _ => rfl
  have hcontent : Recovers (readFrozen? inText)
      (.record [.required "columns" (.list (columnForms columns)),
        .required "bindings" (bindingsForm bindings)])
      fun read => (Projection.frozen columns bindings).same read = true := by
    refine .record (by simp) (by simp)
      (.cons hcolumns fun columns' hcolumns =>
        .cons (recovers_bindingsForm bindings) fun bindings' hbindings =>
          .nil (Projection.frozen columns' bindings') ?_)
      (fun _ => rfl) fun _ _ _ hrecord => ?_
    · simp [Projection.same, sameBindings, hcolumns, hbindings]
    · simp_all [readFrozen?, Tree.isObject]
  exact hcontent.variant (fun _ => rfl) fun _ _ => rfl

theorem Payload.recovers_root (entityType container : String) :
    Recovers (Payload.read? inText) (Payload.root entityType container).planForm
      fun read => (Payload.root entityType container).same read = true := by
  have htexts : Recovers (fun limit tree => (readTexts? "entity_type" "alias" limit tree).map
      fun texts => Payload.root texts.1 texts.2)
      (.record [.required "entity_type" (.plain (.string entityType)),
        .required "alias" (.plain (.string container))])
      fun read => (Payload.root entityType container).same read = true :=
    (recovers_texts (by simp)).map fun texts htexts => by simp [Payload.same, htexts]
  exact htexts.named (Payload.Form.named?_name _) (fun _ => rfl) fun _ _ _ hvariant => by
    rw [Payload.read?, hvariant]

theorem Payload.recovers_raw (entityType text : String) :
    Recovers (Payload.read? inText) (Payload.raw entityType text).planForm
      fun read => (Payload.raw entityType text).same read = true := by
  have htexts : Recovers (fun limit tree => (readTexts? "entity_type" "sql" limit tree).map
      fun texts => Payload.raw texts.1 texts.2)
      (.record [.required "entity_type" (.plain (.string entityType)),
        .required "sql" (.plain (.string text))])
      fun read => (Payload.raw entityType text).same read = true :=
    (recovers_texts (by simp)).map fun texts htexts => by simp [Payload.same, htexts]
  exact htexts.named (Payload.Form.named?_name _) (fun _ => rfl) fun _ _ _ hvariant => by
    rw [Payload.read?, hvariant]

theorem Payload.recovers_select {block : Block}
    (h : Recovers (Block.read? inText) block.planForm fun read => block.same read = true) :
    Recovers (Payload.read? inText) (Payload.select block).planForm
      fun read => (Payload.select block).same read = true := by
  have hblock : Recovers (fun limit tree => (Block.read? inText limit tree).map Payload.select)
      block.planForm fun read => (Payload.select block).same read = true :=
    h.map fun block' hblock => by simpa [Payload.same] using hblock
  exact hblock.named (Payload.Form.named?_name _) (fun _ => rfl) fun _ _ _ hvariant => by
    rw [Payload.read?, hvariant]

theorem Payload.recovers_collection {expression : Expr}
    (h : Recovers (Expr.read? inText) expression.planForm
      fun read => expression.same read = true) :
    Recovers (Payload.read? inText) (Payload.collection expression).planForm
      fun read => (Payload.collection expression).same read = true := by
  have hexpression : Recovers
      (fun limit tree => (Expr.read? inText limit tree).map Payload.collection)
      expression.planForm fun read => (Payload.collection expression).same read = true :=
    h.map fun expression' hexpression => by simpa [Payload.same] using hexpression
  exact hexpression.named (Payload.Form.named?_name _) (fun _ => rfl) fun _ _ _ hvariant => by
    rw [Payload.read?, hvariant]

theorem recovers_source {payload : Payload} {aliasName : String} {iterated : Bool}
    (h : Recovers (Payload.read? inText) payload.planForm fun read => payload.same read = true) :
    Recovers (Source.read? inText)
      (.record [.required "payload" payload.planForm,
        .required "alias" (.plain (.string aliasName)),
        .required "with_in" (.plain (.bool iterated))])
      fun read => payload.same read.payload = true ∧ aliasName = read.aliasName ∧
        iterated = read.iterated := by
  refine .record (by simp) (by simp)
    (.cons h fun payload' hpayload => .cons (.string aliasName) fun aliasName' halias =>
      .cons (.bool iterated) fun iterated' hiterated =>
        .nil (Source.mk payload' aliasName' iterated') ⟨hpayload, halias.symm, hiterated.symm⟩)
    (fun _ => rfl) fun _ _ _ hrecord => ?_
  simp_all [Source.read?]

theorem recovers_sortKey {expression : Expr} {ascending : Bool}
    (h : Recovers (Expr.read? inText) expression.planForm
      fun read => expression.same read = true) :
    Recovers (SortKey.read? inText)
      (.record [.required "expression" expression.planForm,
        .required "ascending" (.plain (.bool ascending))])
      fun read => expression.same read.expression = true ∧ ascending = read.ascending := by
  refine .record (by simp) (by simp)
    (.cons h fun expression' hexpression => .cons (.bool ascending) fun ascending' hascending =>
      .nil (SortKey.mk expression' ascending') ⟨hexpression, hascending.symm⟩)
    (fun _ => rfl) fun _ _ _ hrecord => ?_
  simp_all [SortKey.read?]

theorem recovers_keyBinding {value : Expr} {property : String}
    (h : Recovers (Expr.read? inText) value.planForm fun read => value.same read = true) :
    Recovers (KeyBinding.read? inText)
      (.record [.required "value" value.planForm, .required "property" (propertyForm property)])
      fun read => value.same read.value = true ∧ property = read.property := by
  refine .record (by simp) (by simp)
    (.cons h fun value' hvalue => .cons (recovers_propertyForm property)
      fun property' hproperty => .nil (KeyBinding.mk value' property') ⟨hvalue, hproperty.symm⟩)
    (fun _ => rfl) fun _ _ _ hrecord => ?_
  simp_all [KeyBinding.read?]

/-! ### The fields of a block -/

theorem recoversField_list {α : Type} (name : String) (omittable : Bool)
    {item : Nat → Tree → Option α} {items : Nat → Tree → Option (List α)} {forms : List PlanForm}
    {good : List α → Prop} (h : RecoversParts (fun limit => readAll? (item limit)) forms good)
    (hzero : ∀ trees, items 0 (.array trees) = none)
    (hsucc : ∀ limit trees, items (limit + 1) (.array trees) = readAll? (item limit) trees)
    (habsent : omittable = true → good []) :
    RecoversField (fun limit => readOr? [] (items limit)) ⟨name, omittable, .list forms⟩ good where
  present := .list h hzero fun limit trees _ => hsucc limit trees
  absent homittable _ := ⟨[], rfl, habsent homittable⟩

theorem recoversField_flag (name : String) (value : Bool) :
    RecoversField (fun _ => readOr? false Tree.bool?) ⟨name, !value, .plain (.bool value)⟩
      (· = value) where
  present := .bool value
  absent homittable _ := ⟨false, rfl, by simpa using homittable.symm⟩

theorem recoversField_projection {projection : Projection}
    (h : Recovers (Projection.read? inText) projection.planForm
      fun read => projection.same read = true) :
    RecoversField (fun limit => readOr? .empty (Projection.read? inText limit))
      ⟨"projection", projection.isEmpty, projection.planForm⟩
      fun read => projection.same read = true where
  present := h
  absent homittable _ :=
    ⟨.empty, rfl, by rw [Projection.isEmpty_iff.mp homittable]; simp [Projection.empty,
      OrderedMap.empty, Projection.same, sameEntries]⟩

theorem recoversField_optional (name : String) {optional : Option Expr}
    (h : ∀ expression ∈ optional, Recovers (Expr.read? inText) expression.planForm
      fun read => expression.same read = true) :
    RecoversField (fun limit => readOptional? (Expr.read? inText limit))
      ⟨name, optional.isNone, optionalForm optional⟩
      fun read => sameOptional optional read = true where
  present := by
    cases optional with
    | none => exact Recovers.optional_none.imp fun read hread => by simp [sameOptional, hread]
    | some expression =>
        refine (Recovers.optional_some (h expression rfl) ?_).imp ?_
        · intro limit
          cases limit <;> rfl
        · rintro _ ⟨read, rfl, hread⟩
          simpa [sameOptional] using hread
  absent homittable _ :=
    ⟨none, rfl, by rw [Option.isNone_iff_eq_none.mp homittable]; simp [sameOptional]⟩

theorem recoversField_pointRead (pointRead : Option PointRead) :
    RecoversField (fun limit => readOptional? (PointRead.read? limit))
      ⟨"read_item", pointRead.isNone, (pointRead.map PointRead.planForm).getD (.plain .null)⟩
      (· = pointRead) where
  present := by
    cases pointRead with
    | none => exact Recovers.optional_none
    | some pointRead =>
        refine (Recovers.optional_some pointRead.recovers ?_).imp ?_
        · intro limit
          cases limit <;> rfl
        · rintro _ ⟨read, rfl, rfl⟩
          rfl
  absent homittable _ := ⟨none, rfl, (Option.isNone_iff_eq_none.mp homittable).symm⟩

/-- A block is recovered as soon as its fields are. -/
theorem Block.recovers_of_fields {sources : List Source} {projection : Projection}
    {predicate limit offset : Option Expr} {orderings : List SortKey} {distinct singleValue : Bool}
    {keyBindings : List KeyBinding} {pointRead : Option PointRead}
    (hsources : RecoversParts (fun limit => readAll? (Source.read? inText limit))
      (sourceForms sources) fun read => sameSources sources read = true)
    (hprojection : Recovers (Projection.read? inText) projection.planForm
      fun read => projection.same read = true)
    (hpredicate : ∀ expression ∈ predicate, Recovers (Expr.read? inText) expression.planForm
      fun read => expression.same read = true)
    (horderings : RecoversParts (fun limit => readAll? (SortKey.read? inText limit))
      (sortKeyForms orderings) fun read => sameSortKeys orderings read = true)
    (hlimit : ∀ expression ∈ limit, Recovers (Expr.read? inText) expression.planForm
      fun read => expression.same read = true)
    (hoffset : ∀ expression ∈ offset, Recovers (Expr.read? inText) expression.planForm
      fun read => expression.same read = true)
    (hkeyBindings : RecoversParts (fun limit => readAll? (KeyBinding.read? inText limit))
      (keyBindingForms keyBindings) fun read => sameKeyBindings keyBindings read = true) :
    Recovers (Block.read? inText)
      (Block.mk sources projection predicate orderings limit offset distinct singleValue
        keyBindings pointRead).planForm
      fun read => (Block.mk sources projection predicate orderings limit offset distinct
        singleValue keyBindings pointRead).same read = true := by
  have hsources : RecoversField (fun limit => readOr? [] (readSources? inText limit)) _ _ :=
    recoversField_list "sources" sources.isEmpty hsources (fun _ => rfl) (fun _ _ => rfl)
      fun h => by simp [List.isEmpty_iff.mp h, sameSources]
  have horderings : RecoversField (fun limit => readOr? [] (readSortKeys? inText limit)) _ _ :=
    recoversField_list "orderings" orderings.isEmpty horderings (fun _ => rfl) (fun _ _ => rfl)
      fun h => by simp [List.isEmpty_iff.mp h, sameSortKeys]
  have hkeyBindings : RecoversField (fun limit => readOr? [] (readKeyBindings? inText limit)) _ _ :=
    recoversField_list "partition_key_bindings" keyBindings.isEmpty hkeyBindings (fun _ => rfl)
      (fun _ _ => rfl) fun h => by simp [List.isEmpty_iff.mp h, sameKeyBindings]
  refine .sparse (by simp)
    (.cons hsources fun sources' hsources =>
      .cons (recoversField_projection hprojection) fun projection' hprojection =>
      .cons (recoversField_optional "predicate" hpredicate) fun predicate' hpredicate =>
      .cons horderings fun orderings' horderings =>
      .cons (recoversField_optional "limit" hlimit) fun limit' hlimit =>
      .cons (recoversField_optional "offset" hoffset) fun offset' hoffset =>
      .cons (recoversField_flag "distinct" distinct) fun distinct' hdistinct =>
      .cons (recoversField_flag "single_value_projection" singleValue) fun singleValue' hsingle =>
      .cons hkeyBindings fun keyBindings' hkeyBindings =>
      .cons (recoversField_pointRead pointRead) fun pointRead' hpointRead =>
      .nil (Block.mk sources' projection' predicate' orderings' limit' offset' distinct'
        singleValue' keyBindings' pointRead') ?_)
    (fun _ => rfl) fun _ _ _ hfields => ?_
  · simp [Block.same, hsources, hprojection, hpredicate, horderings, hlimit, hoffset, hdistinct,
      hsingle, hkeyBindings, hpointRead]
  · simp only [List.map_cons, List.map_nil] at hfields
    simp [Block.read?, hfields]

/-! ### All parts together -/

variable (inText)

mutual

theorem Expr.recovers : ∀ expression : Expr,
    Recovers (Expr.read? inText) expression.planForm (fun read => expression.same read = true)
  | .constant value type => by
      refine Expr.recovers_record (by simp) (by simp)
        (.cons (.constant value) fun value' hvalue =>
          .cons type.recovers fun type' htype => .nil (Expr.constant value' type') ?_)
        (fun _ => rfl) fun _ _ _ hrecord => ?_
      · simp [Expr.same, hvalue, htype]
      · simp_all [Expr.readContent?]
  | .parameter name type => by
      refine Expr.recovers_record (by simp) (by simp)
        (.cons (.string name) fun name' hname =>
          .cons type.recovers fun type' htype => .nil (Expr.parameter name' type') ?_)
        (fun _ => rfl) fun _ _ _ hrecord => ?_
      · simp [Expr.same, hname, htype]
      · simp_all [Expr.readContent?]
  | .binary operator left right type => by
      refine Expr.recovers_record (by simp) (by simp)
        (.cons (.name operator.named?_name) fun operator' hoperator =>
          .cons left.recovers fun left' hleft => .cons right.recovers fun right' hright =>
            .cons type.recovers fun type' htype =>
              .nil (Expr.binary operator' left' right' type') ?_)
        (fun _ => rfl) fun _ _ _ hrecord => ?_
      · simp [Expr.same, hoperator, hleft, hright, htype]
      · simp_all [Expr.readContent?]
  | .unary operator operand type => by
      refine Expr.recovers_record (by simp) (by simp)
        (.cons (.name operator.named?_name) fun operator' hoperator =>
          .cons operand.recovers fun operand' hoperand =>
            .cons type.recovers fun type' htype => .nil (Expr.unary operator' operand' type') ?_)
        (fun _ => rfl) fun _ _ _ hrecord => ?_
      · simp [Expr.same, hoperator, hoperand, htype]
      · simp_all [Expr.readContent?]
  | .property base name type => by
      refine Expr.recovers_record (by simp) (by simp)
        (.cons base.recovers fun base' hbase => .cons (.string name) fun name' hname =>
          .cons type.recovers fun type' htype => .nil (Expr.property base' name' type') ?_)
        (fun _ => rfl) fun _ _ _ hrecord => ?_
      · simp [Expr.same, hbase, hname, htype]
      · simp_all [Expr.readContent?]
  | .item array index type => by
      refine Expr.recovers_record (by simp) (by simp)
        (.cons array.recovers fun array' harray => .cons index.recovers fun index' hindex =>
          .cons type.recovers fun type' htype => .nil (Expr.item array' index' type') ?_)
        (fun _ => rfl) fun _ _ _ hrecord => ?_
      · simp [Expr.same, harray, hindex, htype]
      · simp_all [Expr.readContent?]
  | .call function arguments type => by
      refine Expr.recovers_record (by simp) (by simp)
        (.cons (.string function) fun function' hfunction =>
          .cons (recovers_exprs (recoversParts_exprs arguments)) fun arguments' harguments =>
            .cons type.recovers fun type' htype =>
              .nil (Expr.call function' arguments' type') ?_)
        (fun _ => rfl) fun _ _ _ hrecord => ?_
      · simp [Expr.same, hfunction, harguments, htype]
      · simp_all [Expr.readContent?]
  | .inlineArray items => by
      have hitems : RecoversParts
          (fun limit trees => (readAll? (Expr.read? inText limit) trees).map Expr.inlineArray)
          (exprForms items) (fun read => (Expr.inlineArray items).same read = true) :=
        (recoversParts_exprs items).map fun items' hitems => by simpa [Expr.same] using hitems
      exact Expr.recovers_variant (.list hitems (fun _ => rfl) fun _ _ _ => rfl)
  | .membership item values negated => by
      refine Expr.recovers_record (by simp) (by simp)
        (.cons item.recovers fun item' hitem =>
          .cons (recovers_exprs (recoversParts_exprs values)) fun values' hvalues =>
            .cons (.bool negated) fun negated' hnegated =>
              .nil (Expr.membership item' values' negated') ?_)
        (fun _ => rfl) fun _ _ _ hrecord => ?_
      · simp [Expr.same, hitem, hvalues, hnegated]
      · simp_all [Expr.readContent?]
  | .subquery kind block => by
      refine Expr.recovers_record (by simp) (by simp)
        (.cons (.name kind.named?_name) fun kind' hkind =>
          .cons block.recovers fun block' hblock => .nil (Expr.subquery kind' block') ?_)
        (fun _ => rfl) fun _ _ _ hrecord => ?_
      · simp [Expr.same, hkind, hblock]
      · simp_all [Expr.readContent?]
  | .scalarReference aliasName type => by
      refine Expr.recovers_record (by simp) (by simp)
        (.cons (.string aliasName) fun aliasName' halias =>
          .cons type.recovers fun type' htype => .nil (Expr.scalarReference aliasName' type') ?_)
        (fun _ => rfl) fun _ _ _ hrecord => ?_
      · simp [Expr.same, halias, htype]
      · simp_all [Expr.readContent?]
  | .objectReference entityType aliasName => by
      refine Expr.recovers_record (by simp) (by simp)
        (.cons (.string entityType) fun entityType' hentity =>
          .cons (.string aliasName) fun aliasName' halias =>
            .nil (Expr.objectReference entityType' aliasName') ?_)
        (fun _ => rfl) fun _ _ _ hrecord => ?_
      · simp [Expr.same, hentity, halias]
      · simp_all [Expr.readContent?]
  | .fragment text => by
      refine Expr.recovers_variant (.plain (fun {limit} _ => ⟨.fragment text, ?_, ?_⟩)
        fun _ => Nat.zero_le _)
      · cases limit <;> rfl
      · simp [Expr.same]

theorem recoversParts_exprs : ∀ expressions : List Expr,
    RecoversParts (fun limit => readAll? (Expr.read? inText limit)) (exprForms expressions)
      (fun read => sameExprs expressions read = true)
  | [] => .readAll?_nil (by simp [sameExprs])
  | expression :: rest =>
      .readAll?_cons (Expr.recovers expression) (recoversParts_exprs rest)
        fun _ _ hexpression hrest => by simp [sameExprs, hexpression, hrest]

theorem Projected.recovers : ∀ projected : Projected,
    Recovers (Projected.read? inText) projected.planForm fun read => projected.same read = true
  | .scalar value => Projected.recovers_scalar value.recovers
  | .object _ access => Projected.recovers_object access.recovers

theorem recoversParts_entries : ∀ entries : List (Member × Projected),
    RecoversParts (fun limit => readAll? (readBinding? inText limit)) (entryForms entries)
      fun read => sameEntries entries read = true
  | [] => .readAll?_nil (by simp [sameEntries])
  | (_, projected) :: rest =>
      .readAll?_cons (recovers_entry projected.recovers) (recoversParts_entries rest)
        fun ⟨_, _⟩ _ hentry hrest => by simp [sameEntries, hentry, hrest]

theorem recoversParts_columns : ∀ columns : List Column,
    RecoversParts (fun limit => readAll? (Column.read? inText limit)) (columnForms columns)
      fun read => sameColumns columns read = true
  | [] => .readAll?_nil (by simp [sameColumns])
  | ⟨projected, _⟩ :: rest =>
      .readAll?_cons (recovers_column projected.recovers) (recoversParts_columns rest)
        fun ⟨_, _⟩ _ hcolumn hrest => by simp [sameColumns, hcolumn, hrest]

theorem Projection.recovers : ∀ projection : Projection,
    Recovers (Projection.read? inText) projection.planForm fun read => projection.same read = true
  | .pending ⟨entries⟩ => recovers_pending (recoversParts_entries entries)
  | .frozen columns _ => recovers_frozen (recoversParts_columns columns)

theorem Payload.recovers : ∀ payload : Payload,
    Recovers (Payload.read? inText) payload.planForm fun read => payload.same read = true
  | .root entityType container => Payload.recovers_root entityType container
  | .select block => Payload.recovers_select block.recovers
  | .collection expression => Payload.recovers_collection expression.recovers
  | .raw entityType text => Payload.recovers_raw entityType text

theorem recoversParts_sources : ∀ sources : List Source,
    RecoversParts (fun limit => readAll? (Source.read? inText limit)) (sourceForms sources)
      fun read => sameSources sources read = true
  | [] => .readAll?_nil (by simp [sameSources])
  | ⟨payload, _, _⟩ :: rest =>
      .readAll?_cons (recovers_source payload.recovers) (recoversParts_sources rest)
        fun ⟨_, _, _⟩ _ hsource hrest => by simp [sameSources, hsource, hrest]

theorem recoversParts_sortKeys : ∀ keys : List SortKey,
    RecoversParts (fun limit => readAll? (SortKey.read? inText limit)) (sortKeyForms keys)
      fun read => sameSortKeys keys read = true
  | [] => .readAll?_nil (by simp [sameSortKeys])
  | ⟨expression, _⟩ :: rest =>
      .readAll?_cons (recovers_sortKey expression.recovers) (recoversParts_sortKeys rest)
        fun ⟨_, _⟩ _ hkey hrest => by simp [sameSortKeys, hkey, hrest]

theorem recoversParts_keyBindings : ∀ bindings : List KeyBinding,
    RecoversParts (fun limit => readAll? (KeyBinding.read? inText limit))
      (keyBindingForms bindings) fun read => sameKeyBindings bindings read = true
  | [] => .readAll?_nil (by simp [sameKeyBindings])
  | ⟨value, _⟩ :: rest =>
      .readAll?_cons (recovers_keyBinding value.recovers) (recoversParts_keyBindings rest)
        fun ⟨_, _⟩ _ hbinding hrest => by simp [sameKeyBindings, hbinding, hrest]

theorem recovers_optional : ∀ optional : Option Expr, ∀ expression ∈ optional,
    Recovers (Expr.read? inText) expression.planForm fun read => expression.same read = true
  | none => by simp
  | some expression => by
      have hexpression := expression.recovers
      simpa using hexpression

/-- Every writing of a block is read to a block that is the same. -/
theorem Block.recovers : ∀ block : Block,
    Recovers (Block.read? inText) block.planForm fun read => block.same read = true
  | ⟨sources, projection, predicate, orderings, limit, offset, _, _, keyBindings, _⟩ =>
      Block.recovers_of_fields (recoversParts_sources sources) projection.recovers
        (recovers_optional predicate) (recoversParts_sortKeys orderings) (recovers_optional limit)
        (recovers_optional offset) (recoversParts_keyBindings keyBindings)

end

end Reading

namespace Block

/-- The stored form loses nothing: the form that a block is written as is read
to a block that is the same, and so is every other writing of the form, with
fields in other places, added or, where they have their default values, left
out. -/
theorem ofJson?_of_writtenAs (block : Block) :
    (∃ read, Block.ofJson? block.toJson = some read ∧ block.same read = true) ∧
      ∀ json, block.planForm.WrittenAs json →
        ∃ read, Block.ofJson? json = some read ∧ block.same read = true := by
  have hread : ∀ json, block.planForm.WrittenAs json →
      ∃ read, Block.ofJson? json = some read ∧ block.same read = true :=
    fun _ hwritten => (Block.recovers false block).reads hwritten (Nat.le_refl _)
  exact ⟨hread block.toJson block.writtenAs_toJson, hread⟩

/-- A block that asks whether another one has rows, written with most fields
left out, others added and the remaining ones in other places, on both levels. -/
theorem ofJson?_of_sparse_writing :
    ∃ read, Block.ofJson? (.object [("note", .string "all"),
        ("predicate", .variant "Subquery" (.object
          [("cost", .ofNat 1), ("select", .object [("note", .object []), ("distinct", .bool true)]),
            ("kind", .string "Exists")]))]) = some read ∧
      { Block.empty with
        predicate := some (.subquery .exists { Block.empty with distinct := true }) }.same read =
          true := by
  refine (ofJson?_of_writtenAs _).2 _ ?_
  have hinner : ({ Block.empty with distinct := true } : Block).planForm.WrittenAs
      (.object [("note", .object []), ("distinct", .bool true)]) :=
    @PlanForm.WrittenAs.record _ [("distinct", .bool true)] [("note", .object [])] _
      (.leave rfl <| .leave rfl <| .leave rfl <| .leave rfl <| .leave rfl <| .leave rfl <|
        .write (.plain (.bool true)) <| .leave rfl <| .leave rfl <| .leave rfl .nil)
      (by simp) (.swap _ _ _)
  have hpredicate : (Expr.subquery .exists { Block.empty with distinct := true }).planForm.WrittenAs
      (.variant "Subquery" (.object
        [("cost", .ofNat 1), ("select", .object [("note", .object []), ("distinct", .bool true)]),
          ("kind", .string "Exists")])) :=
    .variant (@PlanForm.WrittenAs.record _
      [("kind", .string "Exists"),
        ("select", .object [("note", .object []), ("distinct", .bool true)])]
      [("cost", .ofNat 1)] _ (.write (.plain (.string "Exists")) <| .write hinner .nil)
      (by simp) (List.reverse_perm [("kind", _), ("select", _), ("cost", _)]))
  exact @PlanForm.WrittenAs.record _ [("predicate", _)] [("note", .string "all")] _
    (.leave rfl <| .leave rfl <| .write hpredicate <| .leave rfl <| .leave rfl <| .leave rfl <|
      .leave rfl <| .leave rfl <| .leave rfl <| .leave rfl .nil)
    (by simp) (.swap _ _ _)

end Block

end DocumentQuery
