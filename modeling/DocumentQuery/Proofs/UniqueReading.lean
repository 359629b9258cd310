import DocumentQuery.Proofs.ConstantText
import DocumentQuery.Proofs.Invariants
import DocumentQuery.Proofs.Outlines
import DocumentQuery.Render
/-!
# What a text says of the grouping of an expression

Expressions that are made of references, parameters, properties and operators
have the same text exactly if they have the same outline.

The properties that are read of an expression are written behind it, so that the
text of an expression does not end where that of its base does. Therefore all is
stated for an expression with further properties and what follows these
(`Expr.Tells`).
-/

namespace DocumentQuery

open Text

namespace Expr

variable {a b : Expr}

/-! ## The text of the outline -/

/-- Whether a minus sign is written before the text of an expression without
parentheses. -/
def bearsMinus : Expr → Bool
  | .parameter _ _ => true
  | expression => expression.isPath

theorem negated_eq (operand : Expr) (text : String) :
    negated operand text = if operand.bearsMinus then "-" ++ text else "-(" ++ text ++ ")" := by
  cases operand <;> rfl

theorem bearsMinus_of_isPath {path : Expr} (h : path.isPath = true) : path.bearsMinus = true := by
  cases path with
  | parameter name type => rfl
  | _ => exact h

theorem render_readOff (base : Expr) (name : String) (width : Nat) :
    (base.readOff name).render width = base.render width ++ propertyKey name := by
  rcases base.readOff_cases name with ⟨path, type, rfl, hpath, h⟩ | ⟨-, h⟩
  · have hproperty : (Expr.property path name .unknown).bearsMinus = true := hpath
    rw [h, render, render, negated_eq, negated_eq, if_pos hproperty,
      if_pos (bearsMinus_of_isPath hpath), render, String.append_assoc]
  · rw [h, render]

theorem Plain.bearsMinus_outline (h : a.Plain) : a.outline.bearsMinus = a.bearsMinus := by
  have hpath := h.isPath_outline
  cases h with
  | @property name type base _ =>
      have hbears : ∀ expression : Expr, (expression.readOff name).bearsMinus =
          (expression.readOff name).isPath := by
        intro expression
        rcases expression.readOff_cases name with ⟨_, _, _, -, h⟩ | ⟨-, h⟩ <;> rw [h] <;> rfl
      rw [outline, hbears]
      exact hpath
  | _ => rfl

theorem Plain.render_outline (h : a.Plain) (width : Nat) :
    a.outline.render width = a.render width := by
  induction h with
  | scalarReference type named => rfl
  | objectReference entityType named => rfl
  | parameter type named => rfl
  | property name type _ ih => rw [outline, render_readOff, ih, render]
  | binary operator type _ _ ihleft ihright => rw [outline, render, render, ihleft, ihright]
  | unary operator type hoperand ih =>
      cases operator with
      | not => rw [outline, render, render, ih]
      | negate =>
          rw [outline, render, render, ih, negated_eq, negated_eq, hoperand.bearsMinus_outline]

end Expr

/-! ## Names and properties in a longer text -/

/-- What follows cannot be read as a further part of a name. -/
def EndsName (rest : List Char) : Prop :=
  ∀ c ∈ rest.head?, continuesIdentifier c = false ∧ c ≠ '('

/-- What follows can neither be read as a further part of a name nor as a property:
nothing, or what separates an operand from what comes next. -/
def Closes (rest : List Char) : Prop :=
  ∀ c ∈ rest.head?, c = ' ' ∨ c = ')'

/-- The text of properties that are read one after the other. -/
def keysText (names : List String) : List Char :=
  names.flatMap fun name => (propertyKey name).toList

variable {s t : List Char}

theorem toList_propertyKey (name : String) (rest : List Char) :
    (propertyKey name).toList ++ rest = '[' :: ((Json.quoted name).toList ++ ']' :: rest) := by
  simp [propertyKey]

theorem Closes.endsName (h : Closes s) (names : List String) : EndsName (keysText names ++ s) := by
  intro c hc
  cases names with
  | nil => rcases h c hc with rfl | rfl <;> decide
  | cons name rest =>
      rw [keysText, List.flatMap_cons, List.append_assoc, toList_propertyKey] at hc
      obtain rfl : '[' = c := by simpa using hc
      decide

theorem takeWhile_name {name : String} (h : isIdentifier name = true) (hs : EndsName s) :
    (name.toList ++ s).takeWhile continuesIdentifier = name.toList := by
  rw [List.takeWhile_append_of_pos (continuesIdentifier_of_mem h)]
  cases s with
  | nil => simp
  | cons c rest => simp [(hs c rfl).1]

theorem name_append_inj {a b : String} (ha : isIdentifier a = true) (hb : isIdentifier b = true)
    (hs : EndsName s) (ht : EndsName t) (h : a.toList ++ s = b.toList ++ t) : a = b ∧ s = t := by
  have hname : a.toList = b.toList := by rw [← takeWhile_name ha hs, h, takeWhile_name hb ht]
  rw [hname] at h
  exact ⟨String.toList_inj.mp hname, List.append_cancel_left h⟩

theorem keysText_append_inj {names others : List String} (hs : Closes s) (ht : Closes t)
    (h : keysText names ++ s = keysText others ++ t) : names = others ∧ s = t := by
  have hkey : ∀ (name : String) (rest : List String) (text : List Char),
      keysText (name :: rest) ++ text =
        '[' :: ((Json.quoted name).toList ++ ']' :: (keysText rest ++ text)) := by
    intro name rest text
    rw [keysText, List.flatMap_cons, List.append_assoc, toList_propertyKey]
    rfl
  have hopen : ∀ {text more : List Char}, Closes text → text ≠ '[' :: more := by
    rintro text more hcloses rfl
    have hbracket := hcloses '[' rfl
    revert hbracket
    decide
  induction names generalizing others with
  | nil =>
      cases others with
      | nil => exact ⟨rfl, h⟩
      | cons name rest =>
          rw [hkey] at h
          exact absurd h (hopen hs)
  | cons name names ih =>
      rw [hkey] at h
      cases others with
      | nil => exact absurd h.symm (hopen ht)
      | cons other others =>
          rw [hkey] at h
          obtain ⟨rfl, hrest⟩ := Json.quoted_append_inj (List.cons.inj h).2
          obtain ⟨rfl, hend⟩ := ih (List.cons.inj hrest).2
          exact ⟨rfl, hend⟩

theorem symbol_injective {operator other : Operator} (h : operator.symbol = other.symbol) :
    operator = other := by
  have hfound : ∀ operator : Operator,
      Operator.all.find? (·.symbol == operator.symbol) = some operator := by
    intro operator
    cases operator <;> rfl
  have hsame := hfound operator
  rw [h, hfound other] at hsame
  exact (Option.some.inj hsame).symm

/-- No symbol has a space in it, so it is told by a space behind it. -/
theorem symbol_append_inj {operator other : Operator}
    (h : operator.symbol.toList ++ ' ' :: s = other.symbol.toList ++ ' ' :: t) :
    operator = other ∧ s = t := by
  have htake : ∀ (operator : Operator) (rest : List Char),
      (operator.symbol.toList ++ ' ' :: rest).takeWhile (· != ' ') = operator.symbol.toList := by
    intro operator rest
    cases operator <;> simp [Operator.symbol]
  have hsymbol : operator.symbol.toList = other.symbol.toList := by
    rw [← htake operator s, h, htake other t]
  rw [hsymbol] at h
  exact ⟨symbol_injective (String.toList_inj.mp hsymbol),
    (List.cons.inj (List.append_cancel_left h)).2⟩

/-! ## How a text begins -/

/-- The ways in which the text of an expression can begin. -/
inductive Mark where
  | name
  | parameter
  | parenthesis
  | word
  | minus

/-- How a text begins: a word is a name that a parenthesis follows. -/
def Mark.of (text : List Char) : Mark :=
  match text with
  | '@' :: _ => .parameter
  | '(' :: _ => .parenthesis
  | '-' :: _ => .minus
  | _ => if (text.dropWhile continuesIdentifier).head? = some '(' then .word else .name

theorem Mark.of_name {name : String} (h : isIdentifier name = true) (hs : EndsName s) :
    Mark.of (name.toList ++ s) = .name := by
  obtain ⟨c, rest, htext, hc, -⟩ := exists_of_isIdentifier h
  have hne : ∀ other : Char, continuesIdentifier other = false → c ≠ other := by
    rintro other hother rfl
    rw [hc] at hother
    cases hother
  have hdrop : ((name.toList ++ s).dropWhile continuesIdentifier).head? ≠ some '(' := by
    rw [List.dropWhile_append_of_pos (continuesIdentifier_of_mem h)]
    cases s with
    | nil => simp
    | cons d more => simp [hs d rfl]
  rw [htext, List.cons_append] at hdrop ⊢
  rw [Mark.of, if_neg hdrop]
  · exact fun _ hat => hne '@' rfl (List.cons.inj hat).1
  · exact fun _ hopen => hne '(' rfl (List.cons.inj hopen).1
  · exact fun _ hminus => hne '-' rfl (List.cons.inj hminus).1

namespace Expr

/-- How the text of an expression begins. -/
def mark : Expr → Mark
  | .property base _ _ => base.mark
  | .parameter _ _ => .parameter
  | .binary _ _ _ _ => .parenthesis
  | .unary .not _ _ => .word
  | .unary .negate _ _ => .minus
  | _ => .name

variable {a b : Expr}

theorem Plain.of_render (h : a.Plain) (width : Nat) (hs : EndsName s) :
    Mark.of ((a.render width).toList ++ s) = a.mark := by
  induction h generalizing s with
  | scalarReference type named => exact Mark.of_name named hs
  | objectReference entityType named => exact Mark.of_name named hs
  | parameter type named => simp [render, Mark.of, mark]
  | property name type _ ih =>
      rw [render, String.toList_append, List.append_assoc, mark]
      refine ih ?_
      rw [toList_propertyKey]
      rintro c ⟨⟩
      decide
  | binary operator type _ _ _ _ => simp [render, Mark.of, mark]
  | @unary operator type operand _ _ =>
      cases operator with
      | not => simp [render, Mark.of, mark, continuesIdentifier]
      | negate =>
          rw [render, negated_eq]
          split <;> simp [Mark.of, mark]

/-! ## Expressions with properties -/

/-- What is said by properties that stand one after the other behind a text. -/
def readAll (base : Expr) (names : List String) : Expr :=
  names.foldl readOff base

/-- Texts that begin with those of the two expressions, with properties behind
them, tell the outlines and where they end. -/
def Tells (width : Nat) (a b : Expr) : Prop :=
  ∀ {names others : List String} {s t : List Char}, Closes s → Closes t →
    (a.render width).toList ++ (keysText names ++ s) =
      (b.render width).toList ++ (keysText others ++ t) →
    a.outline.readAll names = b.outline.readAll others ∧ s = t

variable {width : Nat}

theorem closes_space (rest : List Char) : Closes (' ' :: rest) := by
  rintro c ⟨⟩
  exact .inl rfl

theorem closes_parenthesis (rest : List Char) : Closes (')' :: rest) := by
  rintro c ⟨⟩
  exact .inr rfl

/-- The name of a property is the first of those that follow its base. -/
theorem toList_render_property (base : Expr) (name : String) (type : ValueType)
    (names : List String) :
    ((property base name type).render width).toList ++ (keysText names ++ s) =
      (base.render width).toList ++ (keysText (name :: names) ++ s) := by
  simp [render, keysText]

theorem Tells.property_left {base : Expr} (h : Tells width base b) (name : String)
    (type : ValueType) : Tells width (.property base name type) b := by
  intro names others s t hs ht htext
  rw [toList_render_property] at htext
  exact h hs ht htext

theorem Tells.property_right {base : Expr} (h : Tells width a base) (name : String)
    (type : ValueType) : Tells width a (.property base name type) := by
  intro names others s t hs ht htext
  rw [toList_render_property] at htext
  exact h hs ht htext

/-- It is enough to tell an expression from those that are no property. -/
theorem tells_of_stems
    (h : ∀ b : Expr, b.Plain → (∀ base name type, b ≠ .property base name type) →
      Tells width a b) : ∀ b : Expr, b.Plain → Tells width a b := by
  intro b hb
  induction hb with
  | property name type _ ih => exact ih.property_right name type
  | scalarReference type named => exact h _ (.scalarReference type named) nofun
  | objectReference entityType named => exact h _ (.objectReference entityType named) nofun
  | parameter type named => exact h _ (.parameter type named) nofun
  | binary operator type hleft hright => exact h _ (.binary operator type hleft hright) nofun
  | unary operator type hoperand => exact h _ (.unary operator type hoperand) nofun

theorem Plain.mark_eq (ha : a.Plain) (hb : b.Plain) (hs : EndsName s) (ht : EndsName t)
    (h : (a.render width).toList ++ s = (b.render width).toList ++ t) : a.mark = b.mark := by
  rw [← ha.of_render width hs, h, hb.of_render width ht]

theorem tells_references {x y : String} (hx : isIdentifier x = true) (hy : isIdentifier y = true)
    (hrender : a.render width = x) (hrender' : b.render width = y)
    (houtline : a.outline = .objectReference "" x) (houtline' : b.outline = .objectReference "" y) :
    Tells width a b := by
  intro names others s t hs ht htext
  rw [hrender, hrender'] at htext
  obtain ⟨rfl, hrest⟩ := name_append_inj hx hy (hs.endsName names) (ht.endsName others) htext
  obtain ⟨rfl, hend⟩ := keysText_append_inj hs ht hrest
  exact ⟨by rw [houtline, houtline'], hend⟩

theorem parameter_append_inj {x y : String} (hx : isIdentifier x = true)
    (hy : isIdentifier y = true) {type type' : ValueType} {names others : List String}
    (hs : Closes s) (ht : Closes t)
    (h : ((parameter x type).render width).toList ++ (keysText names ++ s) =
      ((parameter y type').render width).toList ++ (keysText others ++ t)) :
    x = y ∧ names = others ∧ s = t := by
  have hlist : ∀ (name : String) (type : ValueType) (rest : List Char),
      ((parameter name type).render width).toList ++ rest = '@' :: (name.toList ++ rest) := by
    intro name type rest
    simp [render]
  rw [hlist, hlist] at h
  obtain ⟨hname, hrest⟩ :=
    name_append_inj hx hy (hs.endsName names) (ht.endsName others) (List.cons.inj h).2
  exact ⟨hname, keysText_append_inj hs ht hrest⟩

theorem tells_binary {left right left' right' : Expr} (hleft : Tells width left left')
    (hright : Tells width right right') (operator other : Operator) (type type' : ValueType) :
    Tells width (.binary operator left right type) (.binary other left' right' type') := by
  intro names others s t hs ht htext
  have hlist : ∀ (operator : Operator) (left right : Expr) (type : ValueType) (rest : List Char),
      ((binary operator left right type).render width).toList ++ rest =
        '(' :: ((left.render width).toList ++ (keysText [] ++ ' ' :: (operator.symbol.toList ++
          ' ' :: ((right.render width).toList ++ (keysText [] ++ ')' :: rest))))) := by
    intro operator left right type rest
    simp [render, keysText]
  rw [hlist, hlist] at htext
  obtain ⟨houtline, hsymbol⟩ :=
    hleft (closes_space _) (closes_space _) (List.cons.inj htext).2
  obtain ⟨rfl, hoperand⟩ := symbol_append_inj (List.cons.inj hsymbol).2
  obtain ⟨houtline', hclose⟩ :=
    hright (closes_parenthesis _) (closes_parenthesis _) hoperand
  obtain ⟨rfl, hend⟩ := keysText_append_inj hs ht (List.cons.inj hclose).2
  have hleftOutline : left.outline = left'.outline := houtline
  have hrightOutline : right.outline = right'.outline := houtline'
  exact ⟨by rw [outline, outline, hleftOutline, hrightOutline], hend⟩

theorem tells_not {operand operand' : Expr} (h : Tells width operand operand')
    (type type' : ValueType) :
    Tells width (.unary .not operand type) (.unary .not operand' type') := by
  intro names others s t hs ht htext
  have hlist : ∀ (operand : Expr) (type : ValueType) (rest : List Char),
      ((unary .not operand type).render width).toList ++ rest =
        "NOT(".toList ++ ((operand.render width).toList ++ (keysText [] ++ ')' :: rest)) := by
    intro operand type rest
    simp [render, keysText]
  rw [hlist, hlist] at htext
  obtain ⟨houtline, hrest⟩ :=
    h (closes_parenthesis _) (closes_parenthesis _) (List.append_cancel_left htext)
  obtain ⟨rfl, hend⟩ := keysText_append_inj hs ht (List.cons.inj hrest).2
  have hoperand : operand.outline = operand'.outline := houtline
  exact ⟨by rw [outline, outline, hoperand], hend⟩

/-! ## Minus signs -/

theorem Plain.mark_of_isPath (h : a.Plain) : a.isPath = true → a.mark = .name := by
  induction h with
  | property name type _ ih => exact ih
  | scalarReference type named => exact fun _ => rfl
  | objectReference entityType named => exact fun _ => rfl
  | _ => exact fun hpath => nomatch hpath

theorem Plain.bearsMinus_cases (h : a.Plain) (hbears : a.bearsMinus = true) :
    (a.isPath = true ∧ a.mark = .name) ∨
      ∃ name type, isIdentifier name = true ∧ a = .parameter name type := by
  have hname := h.mark_of_isPath
  cases h with
  | @parameter type name named => exact .inr ⟨name, type, named, rfl⟩
  | _ => exact .inl ⟨hbears, hname hbears⟩

/-- Properties behind a negated path are read of the path. -/
theorem readAll_negate {path : Expr} (h : path.isPath = true) (type : ValueType)
    (names : List String) :
    (unary .negate path type).readAll names = .unary .negate (path.readAll names) type := by
  induction names generalizing path with
  | nil => rfl
  | cons name names ih =>
      have hread : (unary .negate path type).readOff name =
          .unary .negate (path.readOff name) type := by
        rw [readOff_of_isPath h, readOff, if_pos h]
      rw [readAll, List.foldl_cons, hread]
      exact ih (by rw [isPath_readOff, h])

theorem tells_negate {operand operand' : Expr} (hplain : operand.Plain) (hplain' : operand'.Plain)
    (h : Tells width operand operand') (type type' : ValueType) :
    Tells width (.unary .negate operand type) (.unary .negate operand' type') := by
  intro names others s t hs ht htext
  have hbare : ∀ {operand : Expr}, operand.bearsMinus = true → ∀ (type : ValueType) rest,
      ((unary .negate operand type).render width).toList ++ rest =
        '-' :: ((operand.render width).toList ++ rest) := by
    intro operand hbears type rest
    simp [render, negated_eq, hbears]
  have henclosed : ∀ {operand : Expr}, operand.bearsMinus = false → ∀ (type : ValueType) rest,
      ((unary .negate operand type).render width).toList ++ rest =
        '-' :: '(' :: ((operand.render width).toList ++ (keysText [] ++ ')' :: rest)) := by
    intro operand hbears type rest
    simp [render, negated_eq, hbears, keysText]
  -- what bears the sign without parentheses does not begin with one
  have hunlike : ∀ {operand : Expr} {names : List String} {s rest : List Char}, operand.Plain →
      operand.bearsMinus = true → Closes s →
      (operand.render width).toList ++ (keysText names ++ s) ≠ '(' :: rest := by
    intro operand names s rest hoperand hbears hs hopen
    have hmark : operand.mark = .parenthesis := by
      rw [← hoperand.of_render width (hs.endsName names), hopen, Mark.of]
    rcases hoperand.bearsMinus_cases hbears with ⟨-, hname⟩ | ⟨name, type, -, rfl⟩
    · rw [hname] at hmark
      cases hmark
    · cases hmark
  cases hbears : operand.bearsMinus with
  | true =>
      cases hbears' : operand'.bearsMinus with
      | true =>
          rw [hbare hbears, hbare hbears'] at htext
          have htail := (List.cons.inj htext).2
          obtain ⟨houtline, hend⟩ := h hs ht htail
          refine ⟨?_, hend⟩
          have hmark := hplain.mark_eq hplain' (hs.endsName names) (ht.endsName others) htail
          rcases hplain.bearsMinus_cases hbears with ⟨hpath, hname⟩ | ⟨x, xtype, hx, rfl⟩
          · rcases hplain'.bearsMinus_cases hbears' with ⟨hpath', -⟩ | ⟨y, ytype, -, rfl⟩
            · rw [outline, outline, readAll_negate (hplain.isPath_outline.trans hpath),
                readAll_negate (hplain'.isPath_outline.trans hpath'), houtline]
            · rw [hname] at hmark
              cases hmark
          · rcases hplain'.bearsMinus_cases hbears' with ⟨-, hname'⟩ | ⟨y, ytype, hy, rfl⟩
            · rw [hname'] at hmark
              cases hmark
            · obtain ⟨rfl, rfl, -⟩ := parameter_append_inj hx hy hs ht htail
              rfl
      | false =>
          rw [hbare hbears, henclosed hbears'] at htext
          exact absurd (List.cons.inj htext).2 (hunlike hplain hbears hs)
  | false =>
      cases hbears' : operand'.bearsMinus with
      | true =>
          rw [henclosed hbears, hbare hbears'] at htext
          exact absurd (List.cons.inj htext).2.symm (hunlike hplain' hbears' ht)
      | false =>
          rw [henclosed hbears, henclosed hbears'] at htext
          obtain ⟨houtline, hrest⟩ := h (closes_parenthesis _) (closes_parenthesis _)
            (List.cons.inj (List.cons.inj htext).2).2
          obtain ⟨rfl, hend⟩ := keysText_append_inj hs ht (List.cons.inj hrest).2
          have hoperand : operand.outline = operand'.outline := houtline
          exact ⟨by rw [outline, outline, hoperand], hend⟩

/-! ## The outline is told by the text -/

theorem Plain.tells (ha : a.Plain) : ∀ b : Expr, b.Plain → Tells width a b := by
  -- expressions that are no properties are told apart by how their texts begin
  have hstem : ∀ {a : Expr}, a.Plain → (∀ b : Expr, b.Plain →
      (∀ base name type, b ≠ .property base name type) → a.mark = b.mark → Tells width a b) →
      ∀ b : Expr, b.Plain → Tells width a b := by
    intro a ha h
    refine tells_of_stems fun b hb hb' => ?_
    intro names others s t hs ht htext
    exact h b hb hb' (ha.mark_eq hb (hs.endsName names) (ht.endsName others) htext) hs ht htext
  induction ha with
  | property name type _ ih => exact fun b hb => Tells.property_left (ih b hb) name type
  | scalarReference type named =>
      refine hstem (.scalarReference type named) fun b hb hother hmark => ?_
      cases hb with
      | property => exact absurd rfl (hother _ _ _)
      | scalarReference _ named' => exact tells_references named named' rfl rfl rfl rfl
      | objectReference _ named' => exact tells_references named named' rfl rfl rfl rfl
      | unary operator => cases operator <;> cases hmark
      | _ => cases hmark
  | objectReference entityType named =>
      refine hstem (.objectReference entityType named) fun b hb hother hmark => ?_
      cases hb with
      | property => exact absurd rfl (hother _ _ _)
      | scalarReference _ named' => exact tells_references named named' rfl rfl rfl rfl
      | objectReference _ named' => exact tells_references named named' rfl rfl rfl rfl
      | unary operator => cases operator <;> cases hmark
      | _ => cases hmark
  | parameter type named =>
      refine hstem (.parameter type named) fun b hb hother hmark => ?_
      cases hb with
      | property => exact absurd rfl (hother _ _ _)
      | parameter _ named' =>
          intro names others s t hs ht htext
          obtain ⟨rfl, rfl, hend⟩ := parameter_append_inj named named' hs ht htext
          exact ⟨rfl, hend⟩
      | unary operator => cases operator <;> cases hmark
      | _ => cases hmark
  | binary operator type _ _ ihleft ihright =>
      rename_i hleft hright
      refine hstem (.binary operator type hleft hright) fun b hb hother hmark => ?_
      cases hb with
      | property => exact absurd rfl (hother _ _ _)
      | binary other type' hleft' hright' =>
          exact tells_binary (ihleft _ hleft') (ihright _ hright') operator other type type'
      | unary operator => cases operator <;> cases hmark
      | _ => cases hmark
  | unary operator type hoperand ih =>
      refine hstem (.unary operator type hoperand) fun b hb hother hmark => ?_
      cases hb with
      | property => exact absurd rfl (hother _ _ _)
      | unary other type' hoperand' =>
          cases operator with
          | not =>
              cases other with
              | not => exact tells_not (ih _ hoperand') type type'
              | negate => cases hmark
          | negate =>
              cases other with
              | not => cases hmark
              | negate => exact tells_negate hoperand hoperand' (ih _ hoperand') type type'
      | _ => cases operator <;> cases hmark

theorem Plain.render_inj (ha : a.Plain) (hb : b.Plain) :
    a.render width = b.render width ↔ a.outline = b.outline := by
  constructor
  · intro htext
    have hnothing : Closes [] := nofun
    have hlists : (a.render width).toList ++ (keysText [] ++ []) =
        (b.render width).toList ++ (keysText [] ++ []) := by rw [htext]
    exact (ha.tells b hb hnothing hnothing hlists).1
  · intro houtline
    rw [← ha.render_outline width, houtline, hb.render_outline width]

/-- Two expressions have the same text exactly if they have the same outline. So
those in which no property is read of a negated path are told by their texts, up
to what is not printed, and exactly the expressions without a minus sign and a
property of one path are told from all others. -/
theorem render_eq_iff (width : Nat) (ha : a.Plain) :
    (∀ b : Expr, b.Plain → (a.render width = b.render width ↔ a.outline = b.outline)) ∧
      (∀ b : Expr, b.Plain → (∀ node ∈ a.nodes ++ b.nodes, ¬ node.ReadsOfMinus) →
        a.render width = b.render width → a.bare = b.bare) ∧
      ((∀ b : Expr, b.Plain → a.render width = b.render width → a.bare = b.bare) ↔
        ∀ node ∈ a.nodes, ¬ node.Regroups) := by
  refine ⟨fun b hb => ha.render_inj hb, fun b hb hreads htext => ?_, ?_, ?_⟩
  · rw [List.forall_mem_append] at hreads
    rw [← ha.outline_eq_bare hreads.1, (ha.render_inj hb).mp htext, hb.outline_eq_bare hreads.2]
  · intro htold
    refine ha.bare_told_iff.mp fun b hb houtline => ?_
    exact htold b hb ((ha.render_inj hb).mpr houtline)
  · intro hnone b hb htext
    exact ha.bare_told_iff.mpr hnone b hb ((ha.render_inj hb).mp htext)

/-- Nothing else is written `-@d["x"]` than the property of the negated parameter:
the negated property of the parameter has parentheses. -/
theorem render_eq_iff_negated_parameter :
    (property (.unary .negate (.parameter "d" .object) .object) "x" .number).Plain ∧
      ∀ b : Expr, b.Plain →
        (property (.unary .negate (.parameter "d" .object) .object) "x" .number).render 4 =
          b.render 4 →
        (property (.unary .negate (.parameter "d" .object) .object) "x" .number).bare = b.bare := by
  have hplain : (property (.unary .negate (.parameter "d" .object) .object) "x" .number).Plain :=
    .property "x" .number (.unary .negate .object (.parameter .object (by decide)))
  refine ⟨hplain, (render_eq_iff 4 hplain).2.2.mpr ?_⟩
  simp [nodes_eq (.parameter _ _), parts, block?, Regroups, isPath]

/-- The property of a negated document and the negated property of the document
have the same text. -/
theorem render_regrouped :
    (unary .negate (.property (.objectReference "Blog" "c") "x" .number) .number).Plain ∧
      (property (.unary .negate (.objectReference "Blog" "c") .number) "x" .number).Plain ∧
      (unary .negate (.property (.objectReference "Blog" "c") "x" .number) .number).render 4 =
        (property (.unary .negate (.objectReference "Blog" "c") .number) "x" .number).render 4 ∧
      (unary .negate (.property (.objectReference "Blog" "c") "x" .number) .number).bare ≠
        (property (.unary .negate (.objectReference "Blog" "c") .number) "x" .number).bare := by
  have hdocument : (objectReference "Blog" "c").Plain := .objectReference "Blog" (by decide)
  refine ⟨.unary .negate .number (.property "x" .number hdocument),
    .property "x" .number (.unary .negate .number hdocument), by decide +kernel, nofun⟩

end Expr

end DocumentQuery
