import DocumentQuery.Config
import DocumentQuery.Proofs.Nesting
import DocumentQuery.Proofs.Preview
import DocumentQuery.Proofs.QueryTokens
import Mathlib.Data.List.Forall2
/-!
# Indentation

The width of the indentation decides nothing but how many spaces begin a line.
Without the spaces after line feeds the text of a block is the same for all
widths, whatever texts are taken over into it (`Block.unindented_render`).

Nested texts are split into lines and put together again, and a last line is
lost if it is empty, but not if it consists of spaces. It is therefore not enough
that two texts agree without these spaces: neither of them may end in spaces
that the other one has not. `Realigned` says this, and it is kept when texts are
put one after the other (`Realigns.append`) and when they are nested
(`Realigns.nest`).
-/

namespace DocumentQuery

namespace Text

/-- The characters without the spaces that follow a line feed directly;
`lineStart` says whether one has gone before. -/
def unindentFrom (lineStart : Bool) : List Char → List Char
  | [] => []
  | c :: rest =>
    if lineStart && c == ' ' then unindentFrom true rest
    else c :: unindentFrom (c == '\n') rest

/-- A text without the spaces that follow its line feeds directly. -/
def unindented (text : String) : String :=
  String.ofList (unindentFrom false text.toList)

/-! ## Texts with other spaces after line feeds -/

/-- The texts differ in nothing but the spaces after line feeds, and after each of
these line feeds there is more than spaces. -/
inductive Realigned : List Char → List Char → Prop where
  | nil : Realigned [] []
  | char (c : Char) {a b : List Char} (rest : Realigned a b) : Realigned (c :: a) (c :: b)
  | lineFeed (m n : Nat) {a b : List Char} (more : a ≠ []) (rest : Realigned a b) :
      Realigned ('\n' :: (List.replicate m ' ' ++ a)) ('\n' :: (List.replicate n ' ' ++ b))

namespace Realigned

variable {a b c d : List Char}

theorem refl (text : List Char) : Realigned text text := by
  induction text with
  | nil => exact .nil
  | cons c _ ih => exact .char c ih

theorem append (h : Realigned a b) (hmore : Realigned c d) : Realigned (a ++ c) (b ++ d) := by
  induction h with
  | nil => exact hmore
  | char c _ ih => exact .char c ih
  | lineFeed m n hne _ ih =>
      rw [List.cons_append, List.cons_append, List.append_assoc, List.append_assoc]
      exact .lineFeed m n (List.append_ne_nil_of_left_ne_nil hne _) ih

theorem eq_nil_iff (h : Realigned a b) : a = [] ↔ b = [] := by
  cases h <;> simp

theorem head?_eq (h : Realigned a b) : a.head? = b.head? := by
  cases h <;> rfl

theorem lineFeed_mem_iff (h : Realigned a b) : '\n' ∈ a ↔ '\n' ∈ b := by
  induction h with
  | nil => rfl
  | char c _ ih => simp [ih]
  | lineFeed m n _ _ _ => simp

theorem unindentFrom_spaces (count : Nat) (text : List Char) :
    unindentFrom true (List.replicate count ' ' ++ text) = unindentFrom true text := by
  induction count with
  | zero => rfl
  | succ count ih =>
      rw [List.replicate_succ, List.cons_append, unindentFrom, if_pos (by rfl), ih]

theorem unindentFrom_eq (h : Realigned a b) (lineStart : Bool) :
    unindentFrom lineStart a = unindentFrom lineStart b := by
  induction h generalizing lineStart with
  | nil => rfl
  | char c _ ih => simp only [unindentFrom, ih]
  | lineFeed m n _ _ ih =>
      have hfeed : ∀ rest,
          unindentFrom lineStart ('\n' :: rest) = '\n' :: unindentFrom true rest := by
        intro rest
        simp [unindentFrom]
      rw [hfeed, hfeed, unindentFrom_spaces, unindentFrom_spaces, ih]

end Realigned

/-! ## Nesting -/

section Reflow

variable {pad : List Char}

/-- The carriage return before a line feed is lost. -/
theorem reflow_return (rest : List Char) :
    reflow pad ('\r' :: '\n' :: rest) = reflow pad ('\n' :: rest) := by
  rw [reflow, reflow]

theorem reflow_lineFeed {rest : List Char} (h : rest ≠ []) :
    reflow pad ('\n' :: rest) = '\n' :: (pad ++ reflow pad rest) := by
  rw [reflow, if_neg h]

/-- All other characters stay as they are. -/
theorem reflow_cons {c : Char} {rest : List Char} (hfeed : c ≠ '\n')
    (hreturn : c = '\r' → rest.head? ≠ some '\n') :
    reflow pad (c :: rest) = c :: reflow pad rest := by
  rw [reflow]
  · exact fun h => hfeed h
  · rintro more rfl rfl
    exact hreturn rfl rfl

theorem reflow_spaces (count : Nat) (rest : List Char) :
    reflow pad (List.replicate count ' ' ++ rest) =
      List.replicate count ' ' ++ reflow pad rest := by
  induction count with
  | zero => rfl
  | succ count ih =>
      rw [List.replicate_succ, List.cons_append, reflow_cons (by decide)
        (fun h => absurd h (by decide)), ih, List.cons_append]

end Reflow

/-- Texts of several lines may be indented differently before a closing
parenthesis. -/
theorem Realigned.reflow {a b : List Char} (h : Realigned a b) (m n : Nat) :
    Realigned (Text.reflow (List.replicate m ' ') a ++ [')'])
      (Text.reflow (List.replicate n ' ') b ++ [')']) := by
  induction h with
  | nil => exact .refl _
  | @char c a b hrest ih =>
      by_cases hfeed : c = '\n'
      · subst hfeed
        by_cases ha : a = []
        · rw [hrest.eq_nil_iff.mp ha, ha]
          exact .refl _
        · have hb : b ≠ [] := mt hrest.eq_nil_iff.mpr ha
          rw [reflow_lineFeed ha, reflow_lineFeed hb, List.cons_append, List.cons_append,
            List.append_assoc, List.append_assoc]
          exact .lineFeed m n (by simp) ih
      · by_cases hreturn : c = '\r' ∧ a.head? = some '\n'
        · obtain ⟨rfl, ha⟩ := hreturn
          have hb : b.head? = some '\n' := hrest.head?_eq.symm.trans ha
          obtain ⟨a', rfl⟩ := List.head?_eq_some_iff.mp ha
          obtain ⟨b', rfl⟩ := List.head?_eq_some_iff.mp hb
          rwa [reflow_return, reflow_return]
        · rw [not_and] at hreturn
          rw [reflow_cons hfeed hreturn, reflow_cons hfeed (hrest.head?_eq ▸ hreturn)]
          exact .char c ih
  | @lineFeed m' n' a b hmore hrest ih =>
      have hb : b ≠ [] := mt hrest.eq_nil_iff.mpr hmore
      rw [reflow_lineFeed (List.append_ne_nil_of_right_ne_nil _ hmore),
        reflow_lineFeed (List.append_ne_nil_of_right_ne_nil _ hb), reflow_spaces, reflow_spaces,
        ← List.append_assoc, ← List.append_assoc, List.replicate_append_replicate,
        List.replicate_append_replicate, List.cons_append, List.cons_append, List.append_assoc,
        List.append_assoc]
      exact .lineFeed (m + m') (n + n') (by simp) ih

/-- The texts differ at most in spaces that begin a line. -/
def Realigns (a b : String) : Prop :=
  Realigned a.toList b.toList

namespace Realigns

variable {a b c d : String}

theorem refl (text : String) : Realigns text text :=
  Realigned.refl text.toList

theorem append (h : Realigns a b) (hmore : Realigns c d) : Realigns (a ++ c) (b ++ d) := by
  rw [Realigns, String.toList_append, String.toList_append]
  exact Realigned.append h hmore

theorem before (h : Realigns a b) (word : String) : Realigns (a ++ word) (b ++ word) :=
  h.append (refl word)

theorem after (h : Realigns a b) (word : String) : Realigns (word ++ a) (word ++ b) :=
  (refl word).append h

theorem unindented_eq (h : Realigns a b) : unindented a = unindented b := by
  rw [unindented, unindented, Realigned.unindentFrom_eq h]

theorem nest (h : Realigns a b) (m n : Nat) : Realigns (nest m a) (nest n b) := by
  by_cases hfeed : '\n' ∈ a.toList
  · have hfeed' : '\n' ∈ b.toList := h.lineFeed_mem_iff.mp hfeed
    have htext : ∀ (width : Nat) {text : String}, '\n' ∈ text.toList →
        (Text.nest width text).toList = '(' :: '\n' :: (List.replicate width ' ' ++
          (reflow (List.replicate width ' ') text.toList ++ [')'])) := by
      intro width text hmem
      have hne : text.toList ≠ [] := List.ne_nil_of_mem hmem
      rw [Text.nest, if_pos (List.contains_iff_mem.mpr hmem)]
      simp [toList_indent width hne]
    rw [Realigns, htext m hfeed, htext n hfeed']
    exact .char '(' (.lineFeed m n (by simp) (Realigned.reflow h m n))
  · have hfeed' : '\n' ∉ b.toList := mt h.lineFeed_mem_iff.mpr hfeed
    rw [nest_of_not_mem hfeed, nest_of_not_mem hfeed']
    exact (h.after "(").before ")"

theorem map {α : Type} {items : List α} {f g : α → String}
    (h : ∀ item ∈ items, Realigns (f item) (g item)) :
    List.Forall₂ Realigns (items.map f) (items.map g) := by
  rw [List.forall₂_map_left_iff, List.forall₂_map_right_iff, List.forall₂_same]
  exact h

theorem intercalate {texts others : List String} (h : List.Forall₂ Realigns texts others)
    (separator : String) :
    Realigns (separator.intercalate texts) (separator.intercalate others) := by
  induction h with
  | nil => exact refl _
  | @cons a b rest others hfirst hrest ih =>
      cases hrest with
      | nil => simpa using hfirst
      | cons hnext hmore =>
          rw [String.intercalate_cons_cons, String.intercalate_cons_cons]
          exact (hfirst.before separator).append ih

theorem commaSeparated {texts others : List String} (h : List.Forall₂ Realigns texts others) :
    Realigns (commaSeparated texts) (commaSeparated others) :=
  intercalate h ", "

end Realigns

end Text

open Text

section Texts

variable (m n : Nat)

/-- The texts of an expression under two widths. -/
def Expr.Realigns (expression : Expr) : Prop :=
  Text.Realigns (expression.render m) (expression.render n)

def Block.Realigns (block : Block) : Prop :=
  Text.Realigns (block.render m) (block.render n)

variable {m n : Nat}

/-! ## Expressions -/

theorem realigns_exprs {expressions : List Expr}
    (h : ∀ expression ∈ expressions, expression.Realigns m n) :
    Text.Realigns (commaSeparated (renderExprs m expressions))
      (commaSeparated (renderExprs n expressions)) := by
  rw [renderExprs_eq, renderExprs_eq]
  exact .commaSeparated (Text.Realigns.map h)

theorem realigns_negated (operand : Expr) {a b : String} (h : Text.Realigns a b) :
    Text.Realigns (negated operand a) (negated operand b) := by
  unfold negated
  split
  · exact h.after "-"
  · split
    · exact h.after "-"
    · exact (h.after "-(").before ")"

theorem realigns_subqueryText (kind : SubqueryKind) {a b : String} (h : Text.Realigns a b) :
    Text.Realigns (subqueryText m kind a) (subqueryText n kind b) := by
  cases kind with
  | array => exact (h.nest m n).after "ARRAY"
  | «exists» => exact (h.nest m n).after "EXISTS "
  | scalar => exact h.nest m n

theorem Expr.realigns_of_parts (expression : Expr)
    (hparts : ∀ part ∈ expression.parts, part.Realigns m n)
    (hblock : ∀ block ∈ expression.block?, block.Realigns m n) : expression.Realigns m n := by
  cases expression with
  | constant value type => exact .refl value.compact
  | parameter name type => exact .refl ("@" ++ name)
  | binary operator left right type =>
      have hleft := hparts left (by simp [parts])
      have hright := hparts right (by simp [parts])
      have hboth := (((hleft.after "(").before " ").before operator.symbol).before " "
      exact (hboth.append hright).before ")"
  | unary operator operand type =>
      have hoperand := hparts operand (by simp [parts])
      cases operator with
      | not => exact (hoperand.after "NOT(").before ")"
      | negate => exact realigns_negated operand hoperand
  | property base name type => exact (hparts base (by simp [parts])).before (propertyKey name)
  | item array index type =>
      have harray := hparts array (by simp [parts])
      have hindex := hparts index (by simp [parts])
      exact ((harray.before "[").append hindex).before "]"
  | call function arguments type =>
      have harguments := realigns_exprs hparts
      exact (harguments.after (function ++ "(")).before ")"
  | inlineArray items => exact ((realigns_exprs hparts).after "[").before "]"
  | membership value values negated =>
      rw [parts, List.forall_mem_cons] at hparts
      have hvalue := ((hparts.1.before " ").before (if negated then "NOT " else "")).before "IN ("
      exact (hvalue.append (realigns_exprs hparts.2)).before ")"
  | subquery kind block => exact realigns_subqueryText kind (hblock block rfl)
  | scalarReference aliasName type => exact .refl aliasName
  | objectReference entityType aliasName => exact .refl aliasName
  | fragment text => exact .refl text

/-! ## The clauses of a block -/

theorem realigns_columnText (column : Column) {a b : String} (h : Text.Realigns a b) :
    Text.Realigns (columnText column a) (columnText column b) := by
  unfold columnText
  split
  · exact h
  · exact (h.before " AS ").before column.aliasName

theorem Projected.realigns {projected : Projected} (h : projected.expression.Realigns m n) :
    Text.Realigns (projected.render m) (projected.render n) := by
  cases projected <;> exact h

/-- The columns and their aliases do not depend on the width, only the texts of
their expressions do. -/
theorem realigns_selectText (distinct singleValue : Bool) {projection : Projection}
    (h : ∀ expression ∈ projection.expressions, expression.Realigns m n) :
    Text.Realigns (selectText distinct singleValue (projection.render m))
      (selectText distinct singleValue (projection.render n)) := by
  have hcolumns : ∀ column ∈ projection.preview,
      Text.Realigns (column.expression.render m) (column.expression.render n) :=
    fun column hcolumn =>
      Projected.realigns (h _ (Projection.mem_expressions_of_mem_preview hcolumn))
  rw [Projection.render_eq, Projection.render_eq]
  refine Realigns.after ?_ _
  cases hpreview : projection.preview with
  | nil => exact .refl "1"
  | cons first rest =>
      rw [hpreview] at hcolumns
      cases singleValue with
      | true => exact hcolumns first List.mem_cons_self
      | false =>
          have hlist : Text.Realigns
              (commaSeparated ((first :: rest).map fun column =>
                columnText column (column.expression.render m)))
              (commaSeparated ((first :: rest).map fun column =>
                columnText column (column.expression.render n))) :=
            Realigns.commaSeparated (Realigns.map fun column hcolumn =>
              realigns_columnText column (hcolumns column hcolumn))
          rw [← map_columnText, ← map_columnText] at hlist
          exact hlist

theorem realigns_source {source : Source}
    (harray : ∀ array ∈ source.collection?, array.Realigns m n)
    (hblock : ∀ block ∈ source.block?, block.Realigns m n) :
    Text.Realigns (source.render m) (source.render n) := by
  rcases source with ⟨payload, aliasName, iterated⟩
  have hpayload : Text.Realigns (payload.render m) (payload.render n) := by
    cases payload with
    | root entityType container => exact .refl container
    | select block => exact (hblock block rfl).nest m n
    | collection array => exact harray array rfl
    | raw entityType text => exact .refl _
  rw [Source.render, Source.render, sourceText, sourceText]
  split
  · exact hpayload.after (aliasName ++ " IN ")
  · exact (hpayload.before " ").before aliasName

theorem realigns_sourceLines {texts others : List String}
    (h : List.Forall₂ Text.Realigns texts others) :
    List.Forall₂ Text.Realigns (sourceLines texts) (sourceLines others) := by
  cases h with
  | nil => exact .nil
  | cons hfirst hrest =>
      refine .cons (hfirst.after "FROM ") ?_
      rw [List.forall₂_map_left_iff, List.forall₂_map_right_iff]
      exact hrest.imp fun _ _ hsource => hsource.after "JOIN "

theorem realigns_predicateLine {predicate : Option Expr}
    (h : ∀ expression ∈ predicate, expression.Realigns m n) :
    List.Forall₂ Text.Realigns (predicateLine (renderOptional m predicate))
      (predicateLine (renderOptional n predicate)) := by
  cases predicate with
  | none => exact .nil
  | some expression => exact .cons ((h expression rfl).after "WHERE ") .nil

theorem realigns_orderingLine {texts others : List String}
    (h : List.Forall₂ Text.Realigns texts others) :
    List.Forall₂ Text.Realigns (orderingLine texts) (orderingLine others) := by
  cases h with
  | nil => exact .nil
  | cons hfirst hrest =>
      have hkeys := Realigns.commaSeparated (.cons hfirst hrest)
      exact .cons (hkeys.after "ORDER BY ") .nil

theorem realigns_sortKey {key : SortKey} (h : key.expression.Realigns m n) :
    Text.Realigns (key.render m) (key.render n) := by
  rw [SortKey.render, SortKey.render, sortKeyText, sortKeyText]
  split
  · exact h
  · exact h.before " DESC"

theorem realigns_pagingLine {offset limit : Option Expr}
    (hoffset : ∀ expression ∈ offset, expression.Realigns m n)
    (hlimit : ∀ expression ∈ limit, expression.Realigns m n) :
    List.Forall₂ Text.Realigns (pagingLine (renderOptional m offset) (renderOptional m limit))
      (pagingLine (renderOptional n offset) (renderOptional n limit)) := by
  have hpage : ∀ {a b : String} {limit : Expr}, Text.Realigns a b → limit.Realigns m n →
      Text.Realigns ("OFFSET " ++ a ++ " ROWS FETCH NEXT " ++ limit.render m ++ " ROWS ONLY")
        ("OFFSET " ++ b ++ " ROWS FETCH NEXT " ++ limit.render n ++ " ROWS ONLY") :=
    fun hskipped hlimit =>
      (((hskipped.after "OFFSET ").before " ROWS FETCH NEXT ").append hlimit).before " ROWS ONLY"
  cases offset with
  | none =>
      cases limit with
      | none => exact .nil
      | some limit => exact .cons (hpage (.refl "0") (hlimit limit rfl)) .nil
  | some offset =>
      have hskipped := hoffset offset rfl
      cases limit with
      | none => exact .cons ((hskipped.after "OFFSET ").before " ROWS") .nil
      | some limit => exact .cons (hpage hskipped (hlimit limit rfl)) .nil

theorem Block.realigns_of_clauses (block : Block)
    (hexpressions : ∀ expression ∈ block.expressions, expression.Realigns m n)
    (hblocks : ∀ inner ∈ block.sourceBlocks, inner.Realigns m n) : block.Realigns m n := by
  simp only [expressions, List.forall_mem_append, List.mem_filterMap, List.forall_mem_map,
    Option.mem_toList] at hexpressions
  obtain ⟨⟨⟨⟨⟨hprojected, harrays⟩, hpredicate⟩, hkeys⟩, hoffset⟩, hlimit⟩ := hexpressions
  have hsources : List.Forall₂ Text.Realigns (renderSources m block.sources)
      (renderSources n block.sources) := by
    rw [renderSources_eq, renderSources_eq]
    exact Text.Realigns.map fun source hsource =>
      realigns_source (fun array harray => harrays array ⟨source, hsource, harray⟩)
        fun inner hinner => hblocks inner (List.mem_filterMap.mpr ⟨source, hsource, hinner⟩)
  have horderings : List.Forall₂ Text.Realigns (renderSortKeys m block.orderings)
      (renderSortKeys n block.orderings) := by
    rw [renderSortKeys_eq, renderSortKeys_eq]
    exact Text.Realigns.map fun key hkey => realigns_sortKey (hkeys key hkey)
  rw [Realigns, render_eq, render_eq]
  exact .intercalate (List.rel_append (List.rel_append (List.rel_append (List.rel_append
    (.cons (realigns_selectText block.distinct block.singleValue hprojected) .nil)
    (realigns_sourceLines hsources)) (realigns_predicateLine hpredicate))
    (realigns_orderingLine horderings)) (realigns_pagingLine hoffset hlimit)) "\n"

end Texts

/-- Whatever stands in a block, its texts under two widths of indentation are the
same but for the spaces that follow line feeds. -/
theorem Block.unindented_render (config : Config) (width : Nat) (block : Block) :
    unindented (block.render config.indentWidth) =
      unindented (block.render { config with indentWidth := width }.indentWidth) := by
  have houtward : PassesOutward (Expr.Realigns config.indentWidth width)
      (Block.Realigns config.indentWidth width) :=
    ⟨Expr.realigns_of_parts, Block.realigns_of_clauses⟩
  exact (houtward.all_block block).unindented_eq

end DocumentQuery
