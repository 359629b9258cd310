import DocumentQuery.Proofs.Everywhere
import DocumentQuery.Text.Identifier
/-!
# How a text groups an expression

No parentheses stand around a negated path, so that a property of the negated path
and the negated property of the path have the same text. It is read as the second.
`Expr.outline` is an expression as its text groups it, without the annotations
that are not printed, and `Expr.bare` is the expression itself without them.
The two are the same where no property is read of a negated path
(`Expr.Plain.outline_eq_bare`). Exactly the expressions in which a minus sign and
a property belong to one path share their outline with others
(`Expr.Plain.bare_told_iff`).
-/

namespace DocumentQuery

open Text

namespace Expr

/-! ## Expressions and their outlines -/

/-- The expression is made of references and parameters with identifiers as names
by properties, operators, negations and minus signs. -/
inductive Plain : Expr → Prop where
  | scalarReference (type : ValueType) {aliasName : String}
      (named : isIdentifier aliasName = true) : Plain (.scalarReference aliasName type)
  | objectReference (entityType : String) {aliasName : String}
      (named : isIdentifier aliasName = true) : Plain (.objectReference entityType aliasName)
  | parameter (type : ValueType) {name : String} (named : isIdentifier name = true) :
      Plain (.parameter name type)
  | property (name : String) (type : ValueType) {base : Expr} (ofBase : Plain base) :
      Plain (.property base name type)
  | binary (operator : Operator) (type : ValueType) {left right : Expr} (ofLeft : Plain left)
      (ofRight : Plain right) : Plain (.binary operator left right type)
  | unary (operator : UnaryOperator) (type : ValueType) {operand : Expr}
      (ofOperand : Plain operand) : Plain (.unary operator operand type)

/-- The expression without what is not printed of it: types, entity types, and
whether a reference is to a value or to a document. -/
def bare : Expr → Expr
  | .scalarReference aliasName _ => .objectReference "" aliasName
  | .objectReference _ aliasName => .objectReference "" aliasName
  | .parameter name _ => .parameter name .unknown
  | .property base name _ => .property base.bare name .unknown
  | .binary operator left right _ => .binary operator left.bare right.bare .unknown
  | .unary operator operand _ => .unary operator operand.bare .unknown
  | expression => expression

/-- What is said by a property behind the text of an expression: it is read of the
path behind a minus sign, and of everything else as a whole. -/
def readOff (base : Expr) (name : String) : Expr :=
  match base with
  | .unary .negate operand type =>
    if operand.isPath then .unary .negate (.property operand name .unknown) type
    else .property base name .unknown
  | _ => .property base name .unknown

/-- The expression that the text says: the bare expression, in which a minus sign
before a path stands before the properties that are read of the negated path. -/
def outline : Expr → Expr
  | .scalarReference aliasName _ => .objectReference "" aliasName
  | .objectReference _ aliasName => .objectReference "" aliasName
  | .parameter name _ => .parameter name .unknown
  | .property base name _ => base.outline.readOff name
  | .binary operator left right _ => .binary operator left.outline right.outline .unknown
  | .unary operator operand _ => .unary operator operand.outline .unknown
  | expression => expression

/-- The expression is a property of a negated path. -/
def ReadsOfMinus : Expr → Prop
  | .property (.unary .negate operand _) _ _ => operand.isPath = true
  | _ => False

theorem readOff_cases (base : Expr) (name : String) :
    (∃ path type, base = .unary .negate path type ∧ path.isPath = true ∧
        base.readOff name = .unary .negate (.property path name .unknown) type) ∨
      ((∀ path type, base = .unary .negate path type → path.isPath = false) ∧
        base.readOff name = .property base name .unknown) := by
  unfold readOff
  split
  · rename_i operand type
    cases hpath : operand.isPath with
    | true => exact .inl ⟨operand, type, rfl, hpath, rfl⟩
    | false =>
        refine .inr ⟨fun path type' h => ?_, rfl⟩
        cases h
        exact hpath
  · rename_i hother
    exact .inr ⟨fun path type h => (hother path type h).elim, rfl⟩

theorem isPath_readOff (base : Expr) (name : String) :
    (base.readOff name).isPath = base.isPath := by
  rcases base.readOff_cases name with ⟨path, type, rfl, -, h⟩ | ⟨-, h⟩ <;> rw [h] <;> rfl

theorem readOff_of_isPath {path : Expr} (h : path.isPath = true) (name : String) :
    path.readOff name = .property path name .unknown := by
  rcases path.readOff_cases name with ⟨_, _, rfl, -, -⟩ | ⟨-, hread⟩
  · cases h
  · exact hread

variable {a b : Expr}

theorem Plain.isPath_outline (h : a.Plain) : a.outline.isPath = a.isPath := by
  induction h with
  | property name type _ ih => rw [outline, isPath_readOff, ih, isPath]
  | _ => rfl

theorem Plain.isPath_bare (h : a.Plain) : a.bare.isPath = a.isPath := by
  induction h with
  | property name type _ ih => rw [bare, isPath, ih, isPath]
  | _ => rfl

@[simp] theorem nodes_property (base : Expr) (name : String) (type : ValueType) :
    (property base name type).nodes = property base name type :: base.nodes := by
  simp [nodes_eq (property base name type), parts, block?]

@[simp] theorem nodes_binary (operator : Operator) (left right : Expr) (type : ValueType) :
    (binary operator left right type).nodes =
      binary operator left right type :: (left.nodes ++ right.nodes) := by
  simp [nodes_eq (binary operator left right type), parts, block?]

@[simp] theorem nodes_unary (operator : UnaryOperator) (operand : Expr) (type : ValueType) :
    (unary operator operand type).nodes = unary operator operand type :: operand.nodes := by
  simp [nodes_eq (unary operator operand type), parts, block?]

/-- Where no property is read of a negated path, the text says the expression
itself. -/
theorem Plain.outline_eq_bare (h : a.Plain) (hreads : ∀ node ∈ a.nodes, ¬ node.ReadsOfMinus) :
    a.outline = a.bare := by
  induction h with
  | scalarReference type named => rfl
  | objectReference entityType named => rfl
  | parameter type named => rfl
  | @property name type base hbase ih =>
      rw [nodes_property, List.forall_mem_cons] at hreads
      obtain ⟨hself, hbaseReads⟩ := hreads
      rw [outline, bare, ih hbaseReads]
      rcases base.bare.readOff_cases name with ⟨path, type', hminus, hpath, -⟩ | ⟨-, hread⟩
      · -- the base itself would be a negated path
        exfalso
        cases hbase with
        | unary operator type'' hoperand =>
            cases hminus
            exact hself (hoperand.isPath_bare.symm.trans hpath)
        | _ => cases hminus
      · exact hread
  | binary operator type _ _ ihleft ihright =>
      rw [nodes_binary, List.forall_mem_cons, List.forall_mem_append] at hreads
      rw [outline, bare, ihleft hreads.2.1, ihright hreads.2.2]
  | unary operator type _ ih =>
      rw [nodes_unary, List.forall_mem_cons] at hreads
      rw [outline, bare, ih hreads.2]

/-! ## Expressions that share an outline -/

/-- A minus sign and a property belong to a path, one after the other. The text is
the same whichever of them comes first. -/
def Regroups : Expr → Prop
  | .property (.unary .negate path _) _ _ => path.isPath = true
  | .unary .negate (.property path _ _) _ => path.isPath = true
  | _ => False

theorem ReadsOfMinus.regroups (h : a.ReadsOfMinus) : a.Regroups := by
  unfold ReadsOfMinus at h
  split at h
  · exact h
  · exact h.elim

/-- The outline is that of the expression in which the sign comes first. -/
theorem Plain.outline_regrouped {path : Expr} (h : path.Plain) (hpath : path.isPath = true)
    (name : String) (type type' other other' : ValueType) :
    (Expr.property (.unary .negate path type) name type').outline =
      (Expr.unary .negate (.property path name other) other').outline := by
  have houtline : path.outline.isPath = true := h.isPath_outline.trans hpath
  simp only [outline, readOff_of_isPath houtline]
  rw [readOff, if_pos houtline]

/-- Each expression in which sign and property can change places has the outline
of another one. -/
theorem Plain.exists_regrouped (h : a.Plain) (hregroups : ∃ node ∈ a.nodes, node.Regroups) :
    ∃ b : Expr, b.Plain ∧ a.outline = b.outline ∧ a.bare ≠ b.bare := by
  obtain ⟨node, hnode, hregroups⟩ := hregroups
  induction h with
  | property name type hbase ih =>
      rw [nodes_property, List.mem_cons] at hnode
      rcases hnode with rfl | hnode
      · cases hbase with
        | unary operator type' hpath =>
            cases operator with
            | not => exact hregroups.elim
            | negate =>
                exact ⟨_, .unary .negate type (.property name type hpath),
                  hpath.outline_regrouped hregroups .., nofun⟩
        | _ => exact hregroups.elim
      · obtain ⟨b, hb, houtline, hbare⟩ := ih hnode
        exact ⟨_, .property name type hb, by rw [outline, outline, houtline],
          fun hsame => hbare (property.inj hsame).1⟩
  | binary operator type hleft hright ihleft ihright =>
      rw [nodes_binary, List.mem_cons, List.mem_append] at hnode
      rcases hnode with rfl | hnode | hnode
      · exact hregroups.elim
      · obtain ⟨b, hb, houtline, hbare⟩ := ihleft hnode
        exact ⟨_, .binary operator type hb hright, by rw [outline, outline, houtline],
          fun hsame => hbare (binary.inj hsame).2.1⟩
      · obtain ⟨b, hb, houtline, hbare⟩ := ihright hnode
        exact ⟨_, .binary operator type hleft hb, by rw [outline, outline, houtline],
          fun hsame => hbare (binary.inj hsame).2.2.1⟩
  | unary operator type hoperand ih =>
      rw [nodes_unary, List.mem_cons] at hnode
      rcases hnode with rfl | hnode
      · cases operator with
        | not => exact hregroups.elim
        | negate =>
            cases hoperand with
            | property name type' hpath =>
                exact ⟨_, .property name type (.unary .negate type hpath),
                  (hpath.outline_regrouped hregroups ..).symm, nofun⟩
            | _ => exact hregroups.elim
      · obtain ⟨b, hb, houtline, hbare⟩ := ih hnode
        exact ⟨_, .unary operator type hb, by rw [outline, outline, houtline],
          fun hsame => hbare (unary.inj hsame).2.1⟩
  | _ =>
      rw [nodes_eq] at hnode
      obtain rfl : node = _ := by simpa [parts, block?] using hnode
      exact hregroups.elim

/-- Where an outline is not the bare expression, the sign has moved to the front of
a property in it. -/
theorem Plain.outline_eq_bare_or (h : a.Plain) :
    a.outline = a.bare ∨ ∃ node ∈ a.outline.nodes, node.Regroups := by
  induction h with
  | @property name type base hbase ih =>
      rw [outline, bare]
      rcases base.outline.readOff_cases name with ⟨path, type', -, hpath, h⟩ | ⟨-, h⟩
      · have hmoved : (Expr.unary .negate (.property path name .unknown) type').Regroups := hpath
        exact .inr ⟨_, by rw [h, nodes_unary]; exact List.mem_cons_self, hmoved⟩
      · rw [h, nodes_property]
        rcases ih with ih | ⟨node, hnode, hregroups⟩
        · exact .inl (by rw [ih])
        · exact .inr ⟨node, List.mem_cons_of_mem _ hnode, hregroups⟩
  | binary operator type _ _ ihleft ihright =>
      rw [outline, bare, nodes_binary]
      rcases ihleft with ihleft | ⟨node, hnode, hregroups⟩
      · rcases ihright with ihright | ⟨node, hnode, hregroups⟩
        · exact .inl (by rw [ihleft, ihright])
        · exact .inr ⟨node, by simp [hnode], hregroups⟩
      · exact .inr ⟨node, by simp [hnode], hregroups⟩
  | unary operator type _ ih =>
      rw [outline, bare, nodes_unary]
      rcases ih with ih | ⟨node, hnode, hregroups⟩
      · exact .inl (by rw [ih])
      · exact .inr ⟨node, List.mem_cons_of_mem _ hnode, hregroups⟩
  | _ => exact .inl rfl

theorem Plain.nodes_bare (h : a.Plain) : a.bare.nodes = a.nodes.map bare := by
  induction h with
  | property name type _ ih => simp [bare, ih]
  | binary operator type _ _ ihleft ihright => simp [bare, ihleft, ihright]
  | unary operator type _ ih => simp [bare, ih]
  | _ => simp [nodes_eq, bare, parts, block?]

theorem Plain.of_mem_nodes (h : a.Plain) {node : Expr} (hnode : node ∈ a.nodes) : node.Plain := by
  induction h with
  | property name type hbase ih =>
      rw [nodes_property, List.mem_cons] at hnode
      rcases hnode with rfl | hnode
      · exact .property name type hbase
      · exact ih hnode
  | binary operator type hleft hright ihleft ihright =>
      rw [nodes_binary, List.mem_cons, List.mem_append] at hnode
      rcases hnode with rfl | hnode | hnode
      · exact .binary operator type hleft hright
      · exact ihleft hnode
      · exact ihright hnode
  | unary operator type hoperand ih =>
      rw [nodes_unary, List.mem_cons] at hnode
      rcases hnode with rfl | hnode
      · exact .unary operator type hoperand
      · exact ih hnode
  | scalarReference type named =>
      obtain rfl : node = _ := by simpa [nodes_eq, parts, block?] using hnode
      exact .scalarReference type named
  | objectReference entityType named =>
      obtain rfl : node = _ := by simpa [nodes_eq, parts, block?] using hnode
      exact .objectReference entityType named
  | parameter type named =>
      obtain rfl : node = _ := by simpa [nodes_eq, parts, block?] using hnode
      exact .parameter type named

theorem Plain.regroups_bare (h : a.Plain) : a.bare.Regroups ↔ a.Regroups := by
  cases h with
  | property name type hbase =>
      cases hbase with
      | unary operator type' hpath =>
          cases operator with
          | not => exact .rfl
          | negate => exact iff_of_eq (congrArg (· = true) hpath.isPath_bare)
      | _ => exact .rfl
  | unary operator type hoperand =>
      cases operator with
      | not => cases hoperand <;> exact .rfl
      | negate =>
          cases hoperand with
          | property name type' hpath => exact iff_of_eq (congrArg (· = true) hpath.isPath_bare)
          | _ => exact .rfl
  | _ => exact .rfl

/-- Exactly the expressions without a minus sign and a property of one path are
told from all others by their outlines. -/
theorem Plain.bare_told_iff (ha : a.Plain) :
    (∀ b : Expr, b.Plain → a.outline = b.outline → a.bare = b.bare) ↔
      ∀ node ∈ a.nodes, ¬ node.Regroups := by
  constructor
  · intro htold node hnode hregroups
    obtain ⟨b, hb, houtline, hbare⟩ := ha.exists_regrouped ⟨node, hnode, hregroups⟩
    exact hbare (htold b hb houtline)
  · intro hnone b hb houtline
    rw [ha.outline_eq_bare fun node hnode hreads => hnone node hnode hreads.regroups] at houtline
    rcases hb.outline_eq_bare_or with hbare | hregroups
    · rw [houtline, hbare]
    · rw [← houtline, ha.nodes_bare] at hregroups
      obtain ⟨_, hmem, hregroups⟩ := hregroups
      obtain ⟨node, hnode, rfl⟩ := List.mem_map.mp hmem
      exact absurd ((ha.of_mem_nodes hnode).regroups_bare.mp hregroups) (hnone node hnode)

end Expr

end DocumentQuery
