import DocumentQuery.PlanFile.Write
/-!
# The forms of stored plans

A stored plan is built from values that stand as they are, arrays, variants and
records. A `PlanForm` says which is which, and which fields of its records may
be left out: those of a block whose value is the default one. Every writing of
the form (`PlanForm.WrittenAs`) follows it in all but three things, at any
depth: the fields of a record come in any order, fields that may be left out are
there or not, and further fields of other names may be added.

`PlanForm.toJson` writes all fields in their order and adds none. The form of a
block is written so by `Block.toJson` (`Block.toJson_planForm`).
-/

namespace DocumentQuery

/-! ## Forms and their writings -/

/-- A field of a record, with the form of its value. -/
structure FormField (form : Type) where
  name : String
  omittable : Bool
  content : form

inductive PlanForm where
  /-- A value that stands as it is. -/
  | plain (value : Json)
  | list (items : List PlanForm)
  | variant (name : String) (content : PlanForm)
  | record (fields : List (FormField PlanForm))

namespace PlanForm

mutual

/-- The value follows the form, up to the order of fields, fields that are left
out where they may be, and fields that are added. -/
inductive WrittenAs : PlanForm → Json → Prop
  | plain (value : Json) : WrittenAs (.plain value) value
  | list {items : List PlanForm} {values : List Json} :
      ItemsWrittenAs items values → WrittenAs (.list items) (.array values)
  | variant {name : String} {content : PlanForm} {value : Json} :
      WrittenAs content value → WrittenAs (.variant name content) (.variant name value)
  /-- The fields that are written, and others of unknown names, in any order. -/
  | record {fields : List (FormField PlanForm)} {written added all : List (String × Json)} :
      FieldsWrittenAs fields written → (∀ field ∈ added, field.1 ∉ fields.map (·.name)) →
        all.Perm (written ++ added) → WrittenAs (.record fields) (.object all)

inductive ItemsWrittenAs : List PlanForm → List Json → Prop
  | nil : ItemsWrittenAs [] []
  | cons {item : PlanForm} {items : List PlanForm} {value : Json} {values : List Json} :
      WrittenAs item value → ItemsWrittenAs items values →
        ItemsWrittenAs (item :: items) (value :: values)

/-- What is written of the fields of a record. -/
inductive FieldsWrittenAs : List (FormField PlanForm) → List (String × Json) → Prop
  | nil : FieldsWrittenAs [] []
  | leave {field : FormField PlanForm} {fields : List (FormField PlanForm)}
      {written : List (String × Json)} :
      field.omittable = true → FieldsWrittenAs fields written →
        FieldsWrittenAs (field :: fields) written
  | write {field : FormField PlanForm} {fields : List (FormField PlanForm)} {value : Json}
      {written : List (String × Json)} :
      WrittenAs field.content value → FieldsWrittenAs fields written →
        FieldsWrittenAs (field :: fields) ((field.name, value) :: written)

end

mutual

/-- The writing with all fields, in their order, and no others. -/
def toJson : PlanForm → Json
  | .plain value => value
  | .list items => .array (itemsToJson items)
  | .variant name content => .variant name content.toJson
  | .record fields => .object (fieldsToJson fields)

def itemsToJson : List PlanForm → List Json
  | [] => []
  | item :: rest => item.toJson :: itemsToJson rest

def fieldsToJson : List (FormField PlanForm) → List (String × Json)
  | [] => []
  | ⟨name, _, content⟩ :: rest => (name, content.toJson) :: fieldsToJson rest

end

mutual

theorem writtenAs_toJson : ∀ form : PlanForm, form.WrittenAs form.toJson
  | .plain value => .plain value
  | .list items => .list (itemsWrittenAs_itemsToJson items)
  | .variant _ content => .variant content.writtenAs_toJson
  | .record fields =>
    .record (fieldsWrittenAs_fieldsToJson fields) (List.forall_mem_nil _)
      (by rw [List.append_nil])

theorem itemsWrittenAs_itemsToJson : ∀ items : List PlanForm,
    ItemsWrittenAs items (itemsToJson items)
  | [] => .nil
  | item :: rest => .cons item.writtenAs_toJson (itemsWrittenAs_itemsToJson rest)

theorem fieldsWrittenAs_fieldsToJson : ∀ fields : List (FormField PlanForm),
    FieldsWrittenAs fields (fieldsToJson fields)
  | [] => .nil
  | ⟨_, _, content⟩ :: rest =>
    .write content.writtenAs_toJson (fieldsWrittenAs_fieldsToJson rest)

end

attribute [simp] toJson itemsToJson fieldsToJson

theorem itemsToJson_eq_map (items : List PlanForm) : itemsToJson items = items.map toJson := by
  induction items with
  | nil => rfl
  | cons item rest ih => rw [itemsToJson, ih, List.map_cons]

theorem fieldsToJson_eq_map (fields : List (FormField PlanForm)) :
    fieldsToJson fields = fields.map fun field => (field.name, field.content.toJson) := by
  induction fields with
  | nil => rfl
  | cons field rest ih => rw [fieldsToJson, ih, List.map_cons]

end PlanForm

/-! ## The forms of plans -/

/-- A field that has to be written. -/
def FormField.required (name : String) (content : PlanForm) : FormField PlanForm :=
  ⟨name, false, content⟩

@[simp] theorem FormField.name_required (name : String) (content : PlanForm) :
    (required name content).name = name := rfl

@[simp] theorem FormField.omittable_required (name : String) (content : PlanForm) :
    (required name content).omittable = false := rfl

@[simp] theorem FormField.content_required (name : String) (content : PlanForm) :
    (required name content).content = content := rfl

def Step.planForm : Step → PlanForm
  | .field name => .variant "Field" (.plain (.string name))
  | .index place => .variant "Index" (.plain (.ofNat place))

def Member.planForm (member : Member) : PlanForm :=
  .list (member.steps.map Step.planForm)

/-- The form of a table of column numbers. -/
def bindingsForm (bindings : Mapping Nat) : PlanForm :=
  .list (bindings.entries.map fun entry => .list [entry.1.planForm, .plain (.ofNat entry.2)])

def propertyForm (name : String) : PlanForm :=
  .record [.required "name" (.plain (.string name))]

def PointRead.planForm (pointRead : PointRead) : PlanForm :=
  .record [.required "entity_type" (.plain (.string pointRead.entityType)),
    .required "property_parameters" (.list (pointRead.keys.map fun key =>
      .list [propertyForm key.1, .plain (.string key.2)]))]

/-- The content of a variant of expressions. -/
def Expr.Form.record (form : Expr.Form) (fields : List (FormField PlanForm)) : PlanForm :=
  .variant form.name (.record fields)

@[simp] theorem Expr.Form.toJson_record (form : Expr.Form)
    (fields : List (FormField PlanForm)) :
    (form.record fields).toJson = form.variant (PlanForm.fieldsToJson fields) := rfl

/-- Whether a projection is the one that a block has by default. -/
def Projection.isEmpty : Projection → Bool
  | .pending ⟨[]⟩ => true
  | _ => false

theorem Projection.isEmpty_iff {projection : Projection} :
    projection.isEmpty = true ↔ projection = .empty := by
  unfold isEmpty
  split
  · exact iff_of_true rfl rfl
  · rename_i hne
    exact iff_of_false Bool.false_ne_true hne

mutual

def Expr.planForm : Expr → PlanForm
  | .constant value type =>
    Expr.Form.constant.record [.required "value" (.plain value),
      .required "ty" (.plain type.toJson)]
  | .parameter name type =>
    Expr.Form.parameter.record [.required "name" (.plain (.string name)),
      .required "ty" (.plain type.toJson)]
  | .binary operator left right type =>
    Expr.Form.binary.record [.required "operator" (.plain (.string operator.name)),
      .required "left" left.planForm, .required "right" right.planForm,
      .required "ty" (.plain type.toJson)]
  | .unary operator operand type =>
    Expr.Form.unary.record [.required "operator" (.plain (.string operator.name)),
      .required "operand" operand.planForm, .required "ty" (.plain type.toJson)]
  | .property base name type =>
    Expr.Form.property.record [.required "base" base.planForm,
      .required "name" (.plain (.string name)), .required "ty" (.plain type.toJson)]
  | .item array index type =>
    Expr.Form.item.record [.required "array" array.planForm, .required "index" index.planForm,
      .required "ty" (.plain type.toJson)]
  | .call function arguments type =>
    Expr.Form.call.record [.required "name" (.plain (.string function)),
      .required "args" (.list (exprForms arguments)), .required "ty" (.plain type.toJson)]
  | .inlineArray items => .variant Expr.Form.inlineArray.name (.list (exprForms items))
  | .membership item values negated =>
    Expr.Form.membership.record [.required "item" item.planForm,
      .required "values" (.list (exprForms values)), .required "negated" (.plain (.bool negated))]
  | .subquery kind block =>
    Expr.Form.subquery.record [.required "kind" (.plain (.string kind.name)),
      .required "select" block.planForm]
  | .scalarReference aliasName type =>
    Expr.Form.scalarReference.record [.required "alias" (.plain (.string aliasName)),
      .required "ty" (.plain type.toJson)]
  | .objectReference entityType aliasName =>
    Expr.Form.objectReference.record [.required "entity_type" (.plain (.string entityType)),
      .required "alias" (.plain (.string aliasName))]
  | .fragment text => .variant Expr.Form.fragment.name (.plain (.string text))

def exprForms : List Expr → List PlanForm
  | [] => []
  | expression :: rest => expression.planForm :: exprForms rest

/-- The form of an expression that may be absent. -/
def optionalForm : Option Expr → PlanForm
  | none => .plain .null
  | some expression => expression.planForm

def Projected.planForm : Projected → PlanForm
  | .scalar value => .variant Projected.Form.scalar.name value.planForm
  | .object entityType access =>
    .variant Projected.Form.object.name (.record
      [.required "entity_type" (.plain (.string entityType)), .required "access" access.planForm])

def entryForms : List (Member × Projected) → List PlanForm
  | [] => []
  | (member, projected) :: rest =>
    .list [member.planForm, projected.planForm] :: entryForms rest

def columnForms : List Column → List PlanForm
  | [] => []
  | ⟨projected, aliasName⟩ :: rest =>
    .record [.required "expression" projected.planForm,
      .required "alias" (.plain (.string aliasName))] :: columnForms rest

def Projection.planForm : Projection → PlanForm
  | .pending ⟨entries⟩ => .variant "Pending" (.list (entryForms entries))
  | .frozen columns bindings =>
    .variant "Frozen" (.record [.required "columns" (.list (columnForms columns)),
      .required "bindings" (bindingsForm bindings)])

def Payload.planForm : Payload → PlanForm
  | .root entityType container =>
    .variant Payload.Form.root.name (.record
      [.required "entity_type" (.plain (.string entityType)),
        .required "alias" (.plain (.string container))])
  | .select block => .variant Payload.Form.select.name block.planForm
  | .collection expression => .variant Payload.Form.collection.name expression.planForm
  | .raw entityType text =>
    .variant Payload.Form.raw.name (.record
      [.required "entity_type" (.plain (.string entityType)),
        .required "sql" (.plain (.string text))])

def sourceForms : List Source → List PlanForm
  | [] => []
  | ⟨payload, aliasName, iterated⟩ :: rest =>
    .record [.required "payload" payload.planForm, .required "alias" (.plain (.string aliasName)),
      .required "with_in" (.plain (.bool iterated))] :: sourceForms rest

def sortKeyForms : List SortKey → List PlanForm
  | [] => []
  | ⟨expression, ascending⟩ :: rest =>
    .record [.required "expression" expression.planForm,
      .required "ascending" (.plain (.bool ascending))] :: sortKeyForms rest

def keyBindingForms : List KeyBinding → List PlanForm
  | [] => []
  | ⟨value, property⟩ :: rest =>
    .record [.required "value" value.planForm, .required "property" (propertyForm property)] ::
      keyBindingForms rest

/-- The form of a block. A field may be left out exactly if it has its default
value. -/
def Block.planForm : Block → PlanForm
  | ⟨sources, projection, predicate, orderings, limit, offset, distinct, singleValue, keyBindings,
      pointRead⟩ =>
    .record [⟨"sources", sources.isEmpty, .list (sourceForms sources)⟩,
      ⟨"projection", projection.isEmpty, projection.planForm⟩,
      ⟨"predicate", predicate.isNone, optionalForm predicate⟩,
      ⟨"orderings", orderings.isEmpty, .list (sortKeyForms orderings)⟩,
      ⟨"limit", limit.isNone, optionalForm limit⟩,
      ⟨"offset", offset.isNone, optionalForm offset⟩,
      ⟨"distinct", !distinct, .plain (.bool distinct)⟩,
      ⟨"single_value_projection", !singleValue, .plain (.bool singleValue)⟩,
      ⟨"partition_key_bindings", keyBindings.isEmpty, .list (keyBindingForms keyBindings)⟩,
      ⟨"read_item", pointRead.isNone,
        (pointRead.map PointRead.planForm).getD (.plain .null)⟩]

end

/-! ## Plans are written in their forms -/

open PlanForm

theorem Step.toJson_planForm (step : Step) : step.planForm.toJson = step.toJson := by
  cases step <;> rfl

@[simp] theorem Member.toJson_planForm (member : Member) :
    member.planForm.toJson = member.toJson := by
  simp [Member.planForm, Member.toJson, itemsToJson_eq_map, Step.toJson_planForm]

@[simp] theorem toJson_bindingsForm (bindings : Mapping Nat) :
    (bindingsForm bindings).toJson = bindingsToJson bindings := by
  simp [bindingsForm, bindingsToJson, itemsToJson_eq_map]

theorem PointRead.toJson_planForm (pointRead : PointRead) :
    pointRead.planForm.toJson = pointRead.toJson := by
  simp [PointRead.planForm, PointRead.toJson, itemsToJson_eq_map, propertyForm, propertyToJson,
    Function.comp_def]

mutual

theorem Expr.toJson_planForm : ∀ expression : Expr, expression.planForm.toJson = expression.toJson
  | .constant _ _ => rfl
  | .parameter _ _ => rfl
  | .binary _ left right _ => by
      have hleft := left.toJson_planForm
      have hright := right.toJson_planForm
      simp [Expr.planForm, Expr.toJson, hleft, hright]
  | .unary _ operand _ => by
      have hoperand := operand.toJson_planForm
      simp [Expr.planForm, Expr.toJson, hoperand]
  | .property base _ _ => by
      have hbase := base.toJson_planForm
      simp [Expr.planForm, Expr.toJson, hbase]
  | .item array index _ => by
      have harray := array.toJson_planForm
      have hindex := index.toJson_planForm
      simp [Expr.planForm, Expr.toJson, harray, hindex]
  | .call _ arguments _ => by
      have harguments := itemsToJson_exprForms arguments
      simp [Expr.planForm, Expr.toJson, harguments]
  | .inlineArray items => by
      have hitems := itemsToJson_exprForms items
      simp [Expr.planForm, Expr.toJson, hitems]
  | .membership item values _ => by
      have hitem := item.toJson_planForm
      have hvalues := itemsToJson_exprForms values
      simp [Expr.planForm, Expr.toJson, hitem, hvalues]
  | .subquery _ block => by
      have hblock := block.toJson_planForm
      simp [Expr.planForm, Expr.toJson, hblock]
  | .scalarReference _ _ => rfl
  | .objectReference _ _ => rfl
  | .fragment _ => rfl

theorem itemsToJson_exprForms : ∀ expressions : List Expr,
    itemsToJson (exprForms expressions) = exprsToJson expressions
  | [] => rfl
  | expression :: rest => by
      rw [exprForms, exprsToJson, PlanForm.itemsToJson, expression.toJson_planForm,
        itemsToJson_exprForms rest]

theorem toJson_optionalForm : ∀ optional : Option Expr,
    (optionalForm optional).toJson = optionalToJson optional
  | none => rfl
  | some expression => expression.toJson_planForm

theorem Projected.toJson_planForm : ∀ projected : Projected,
    projected.planForm.toJson = projected.toJson
  | .scalar value => congrArg (Json.variant Projected.Form.scalar.name) value.toJson_planForm
  | .object _ access => by
      have haccess := access.toJson_planForm
      simp [Projected.planForm, Projected.toJson, haccess]

theorem itemsToJson_entryForms : ∀ entries : List (Member × Projected),
    itemsToJson (entryForms entries) = entriesToJson entries
  | [] => rfl
  | (_, projected) :: rest => by
      have hprojected := projected.toJson_planForm
      have hrest := itemsToJson_entryForms rest
      simp [entryForms, entriesToJson, hprojected, hrest]

theorem itemsToJson_columnForms : ∀ columns : List Column,
    itemsToJson (columnForms columns) = columnsToJson columns
  | [] => rfl
  | ⟨projected, _⟩ :: rest => by
      have hprojected := projected.toJson_planForm
      have hrest := itemsToJson_columnForms rest
      simp [columnForms, columnsToJson, hprojected, hrest]

theorem Projection.toJson_planForm : ∀ projection : Projection,
    projection.planForm.toJson = projection.toJson
  | .pending ⟨entries⟩ => by
      have hentries := itemsToJson_entryForms entries
      simp [Projection.planForm, Projection.toJson, hentries]
  | .frozen columns _ => by
      have hcolumns := itemsToJson_columnForms columns
      simp [Projection.planForm, Projection.toJson, hcolumns]

theorem Payload.toJson_planForm : ∀ payload : Payload, payload.planForm.toJson = payload.toJson
  | .root _ _ => rfl
  | .select block => congrArg (Json.variant Payload.Form.select.name) block.toJson_planForm
  | .collection expression =>
    congrArg (Json.variant Payload.Form.collection.name) expression.toJson_planForm
  | .raw _ _ => rfl

theorem itemsToJson_sourceForms : ∀ sources : List Source,
    itemsToJson (sourceForms sources) = sourcesToJson sources
  | [] => rfl
  | ⟨payload, _, _⟩ :: rest => by
      have hpayload := payload.toJson_planForm
      have hrest := itemsToJson_sourceForms rest
      simp [sourceForms, sourcesToJson, hpayload, hrest]

theorem itemsToJson_sortKeyForms : ∀ keys : List SortKey,
    itemsToJson (sortKeyForms keys) = sortKeysToJson keys
  | [] => rfl
  | ⟨expression, _⟩ :: rest => by
      have hexpression := expression.toJson_planForm
      have hrest := itemsToJson_sortKeyForms rest
      simp [sortKeyForms, sortKeysToJson, hexpression, hrest]

theorem itemsToJson_keyBindingForms : ∀ bindings : List KeyBinding,
    itemsToJson (keyBindingForms bindings) = keyBindingsToJson bindings
  | [] => rfl
  | ⟨value, _⟩ :: rest => by
      have hvalue := value.toJson_planForm
      have hrest := itemsToJson_keyBindingForms rest
      simp [keyBindingForms, keyBindingsToJson, propertyForm, propertyToJson, hvalue, hrest]

/-- A block is written in its form, with all fields. -/
theorem Block.toJson_planForm : ∀ block : Block, block.planForm.toJson = block.toJson
  | ⟨sources, projection, predicate, orderings, limit, offset, _, _, keyBindings, pointRead⟩ => by
      have hsources := itemsToJson_sourceForms sources
      have hprojection := projection.toJson_planForm
      have hpredicate := toJson_optionalForm predicate
      have horderings := itemsToJson_sortKeyForms orderings
      have hlimit := toJson_optionalForm limit
      have hoffset := toJson_optionalForm offset
      have hkeyBindings := itemsToJson_keyBindingForms keyBindings
      have hpointRead : ((pointRead.map PointRead.planForm).getD (.plain .null)).toJson =
          .optional (pointRead.map PointRead.toJson) := by
        cases pointRead with
        | none => rfl
        | some pointRead => exact pointRead.toJson_planForm
      simp [Block.planForm, Block.toJson, hsources, hprojection, hpredicate, horderings, hlimit,
        hoffset, hkeyBindings, hpointRead]

end

/-- What a block is written as is a writing of its form. -/
theorem Block.writtenAs_toJson (block : Block) : block.planForm.WrittenAs block.toJson :=
  block.toJson_planForm ▸ block.planForm.writtenAs_toJson

end DocumentQuery
