import DocumentQuery.Block.Build
import DocumentQuery.Proofs.Calls
import DocumentQuery.Proofs.FrozenColumns
import DocumentQuery.Proofs.Preview
/-!
# Which aliases of columns are identifiers

An alias is written without quotes, so it should be an identifier. The number
that keeps it from colliding does not change whether it is one
(`Alias.IsFirstFree.isIdentifier_eq`), and so it depends on what the column is
named after. A field, a reference and the default are names anyway. A property
can have any name: its column is shown without an alias as long as it is called
like the property, but with a number behind the name if the name is taken. That is
the only way in which an alias that is no identifier gets into the text, where the
aliases of `Block.aliased` stand after `AS` (`Block.render_columns`).
-/

namespace DocumentQuery

open Text

/-! ## A number behind an identifier -/

namespace Text

theorem identifier_of_isDigit {c : Char} (h : c.isDigit = true) :
    continuesIdentifier c = true ∧ startsIdentifier c = false := by
  refine of_isDigit ?_ h
  decide

theorem isIdentifier_append_number (name : String) (n : Nat) :
    isIdentifier (name ++ toString n) = isIdentifier name := by
  have hdigits : ∀ c ∈ (toString n).toList,
      continuesIdentifier c = true ∧ startsIdentifier c = false :=
    fun c hc => identifier_of_isDigit (isDigit_of_mem_number hc)
  have hcontinues : (toString n).toList.all continuesIdentifier = true :=
    List.all_eq_true.mpr fun c hc => (hdigits c hc).1
  rw [isIdentifier, isIdentifier, String.toList_append]
  cases name.toList with
  | cons c rest =>
      rw [List.cons_append, isIdentifierChars, isIdentifierChars, List.all_append, hcontinues,
        Bool.and_true]
  | nil =>
      -- a number alone is no identifier, as the empty text is none
      rw [List.nil_append]
      revert hdigits
      cases (toString n).toList with
      | nil => exact fun _ => rfl
      | cons c rest =>
          intro hdigits
          rw [isIdentifierChars, isIdentifierChars, (hdigits c List.mem_cons_self).2,
            Bool.false_and]

end Text

namespace Alias

variable {taken : List String} {base aliasName : String}

theorem IsFirstFree.isIdentifier_eq (h : IsFirstFree taken base aliasName) :
    isIdentifier aliasName = isIdentifier base := by
  obtain ⟨n, rfl, -, -⟩ := h
  cases n with
  | zero => rfl
  | succ n => exact isIdentifier_append_number base n

theorem IsFirstFree.eq_base_iff (h : IsFirstFree taken base aliasName) :
    aliasName = base ↔ isTaken taken base = false := by
  obtain ⟨n, halias, hfree, hpassed⟩ := h
  constructor
  · rintro rfl
    exact hfree
  · intro hbase
    cases n with
    | zero => exact halias
    | succ n =>
        have htaken := hpassed 0 n.succ_pos
        rw [candidate, hbase] at htaken
        cases htaken

end Alias

/-! ## What a column is named after -/

namespace Expr

/-- The name of the property that an expression reads. -/
def propertyName? : Expr → Option String
  | .property _ name _ => some name
  | _ => none

/-- The alias that an expression refers to. -/
def referenceName? : Expr → Option String
  | .scalarReference aliasName _ => some aliasName
  | .objectReference _ aliasName => some aliasName
  | _ => none

theorem accessName?_eq (expression : Expr) :
    expression.accessName? = (expression.propertyName? <|> expression.referenceName?) := by
  cases expression <;> rfl

end Expr

/-- The column is named after the property `name`: the first position that is
bound to what it shows ends with no field, and the expression reads the property. -/
def NamedAfterProperty (entries : List (Member × Projected)) (column : Column)
    (name : String) : Prop :=
  ∃ member,
    entries.find? (fun entry => entry.2.same column.expression) =
      some (member, column.expression) ∧
    member.lastName? = none ∧ column.expression.expression.propertyName? = some name

/-- All names of fields and references that a column can be named after are
identifiers. -/
structure NamesIdentified (entries : List (Member × Projected)) : Prop where
  fields : ∀ entry ∈ entries, ∀ name ∈ entry.1.lastName?, isIdentifier name = true
  references : ∀ entry ∈ entries, ∀ name ∈ entry.2.expression.referenceName?,
    isIdentifier name = true

variable {entries : List (Member × Projected)} {columns : List Column} {column : Column}
  {number : Nat}

theorem NamedAfterProperty.aliasBase_eq {name : String} {member : Member} (fallback : String)
    (h : NamedAfterProperty entries column name)
    (hfirst : entries.find? (fun entry => entry.2.same column.expression) =
      some (member, column.expression)) :
    aliasBase fallback member column.expression = name := by
  obtain ⟨found, hfound, hlast, hproperty⟩ := h
  rw [hfirst] at hfound
  obtain rfl := (Prod.mk.inj (Option.some.inj hfound)).1
  rw [aliasBase_eq_getD, hlast, Projected.accessName?, Expr.accessName?_eq, hproperty]
  rfl

/-- What a column is named after is an identifier, unless it is a property. -/
theorem NamesIdentified.aliasBase_cases (h : NamesIdentified entries) {member : Member}
    (hfirst : entries.find? (fun entry => entry.2.same column.expression) =
      some (member, column.expression)) :
    isIdentifier (aliasBase defaultColumnAlias member column.expression) = true ∨
      ∃ name, NamedAfterProperty entries column name := by
  have hentry := List.mem_of_find?_eq_some hfirst
  cases hlast : member.lastName? with
  | some name =>
      rw [aliasBase_eq_getD, hlast]
      exact .inl (h.fields _ hentry name hlast)
  | none =>
      cases hproperty : column.expression.expression.propertyName? with
      | some name => exact .inr ⟨name, member, hfirst, hlast, hproperty⟩
      | none =>
          rw [aliasBase_eq_getD, hlast, Projected.accessName?, Expr.accessName?_eq, hproperty]
          cases hreference : column.expression.expression.referenceName? with
          | some name => exact .inl (h.references _ hentry name hreference)
          | none => exact .inl (by decide)

/-- The alias that a column is shown with is an identifier, unless the column is
named after a property whose name is none and is taken. -/
theorem NamedFrom.isIdentifier_iff (h : NamedFrom defaultColumnAlias entries columns)
    (hnames : NamesIdentified entries) (hcolumn : columns[number]? = some column) :
    (column.expression.accessName? ≠ some column.aliasName →
        isIdentifier column.aliasName = true) ↔
      ∀ name, NamedAfterProperty entries column name → isIdentifier name = false →
        Alias.isTaken ((columns.take number).map (·.aliasName)) name = false := by
  obtain ⟨member, hfirst, hfree⟩ := h.aliases number column hcolumn
  rcases hnames.aliasBase_cases hfirst with hbase | ⟨name, hproperty⟩
  · have halias : isIdentifier column.aliasName = true := hfree.isIdentifier_eq.trans hbase
    refine iff_of_true (fun _ => halias) fun name hproperty hname => ?_
    rw [hproperty.aliasBase_eq _ hfirst, hname] at hbase
    cases hbase
  · rw [hproperty.aliasBase_eq _ hfirst] at hfree
    have hshown : column.expression.accessName? = some name := by
      obtain ⟨-, -, -, hreads⟩ := hproperty
      rw [Projected.accessName?, Expr.accessName?_eq, hreads]
      rfl
    rw [hshown, hfree.isIdentifier_eq]
    constructor
    · -- the alias of a taken name differs from the name, and is shown
      intro h other hother hnone
      obtain rfl : name = other :=
        (hproperty.aliasBase_eq defaultColumnAlias hfirst).symm.trans
          (hother.aliasBase_eq _ hfirst)
      refine hfree.eq_base_iff.mp ?_
      by_contra hdiffers
      have hname := h fun hsame => hdiffers (Option.some.inj hsame).symm
      rw [hnone] at hname
      cases hname
    · intro h hdiffers
      by_contra hname
      have hkept := hfree.eq_base_iff.mpr (h name hproperty (by simpa using hname))
      exact hdiffers (by rw [hkept])

/-! ## The aliases in a text -/

/-- Let fields and references be called by identifiers. Then the aliases that are
shown are identifiers exactly if the property that a column is named after is
called by an identifier too, or by a name that no column before it has taken. -/
theorem Block.isIdentifier_aliased_iff {block : Block} {mapping : Mapping Projected}
    (hpending : block.projection = .pending mapping) (hlist : block.singleValue = false)
    (hnames : NamesIdentified mapping.entries) :
    (∀ column ∈ block.aliased, isIdentifier column.aliasName = true) ↔
      ∀ number column name, block.projection.preview[number]? = some column →
        NamedAfterProperty mapping.entries column name → isIdentifier name = false →
        Alias.isTaken ((block.projection.preview.take number).map (·.aliasName)) name = false := by
  have hnamed : NamedFrom defaultColumnAlias mapping.entries block.projection.preview := by
    rw [hpending]
    exact (NamedFrom.empty defaultColumnAlias).freezeFrom .empty mapping.entries
  constructor
  · intro h number column name hcolumn
    refine (hnamed.isIdentifier_iff hnames hcolumn).mp (fun hdiffers => ?_) name
    exact h column ((mem_aliased_iff hlist).mpr ⟨List.mem_of_getElem? hcolumn, hdiffers⟩)
  · intro h column hcolumn
    obtain ⟨hshown, hdiffers⟩ := (mem_aliased_iff hlist).mp hcolumn
    obtain ⟨number, hnumber⟩ := List.mem_iff_getElem?.mp hshown
    exact (hnamed.isIdentifier_iff hnames hnumber).mpr
      (fun name => h number column name hnumber) hdiffers

/-- A property whose name has a space comes first and is shown without alias; the
other columns are named after a field and after a property that needs a number. -/
theorem Block.isIdentifier_aliased_iff_spaced :
    let blog := Expr.objectReference "Blog" "c"
    let spaced := Projected.scalar (.property blog "Display Name" .string)
    let title := Projected.scalar (.property blog "Title" .string)
    let name := Projected.scalar (.property (.property blog "Author" .object) "name" .string)
    let mapping : Mapping Projected := ⟨[(⟨[.index 0]⟩, spaced), (⟨[.field "Name"]⟩, title),
      (⟨[.index 2]⟩, name)]⟩
    let block := (forEntity .default "Blog").withProjection (.pending mapping)
    block.projection = .pending mapping ∧ block.singleValue = false ∧
      NamesIdentified mapping.entries ∧
      (block.aliased.map (·.aliasName)) = ["Name", "name0"] ∧
      ∀ column ∈ block.aliased, isIdentifier column.aliasName = true := by
  intro blog spaced title name mapping block
  have hnames : NamesIdentified mapping.entries := by
    constructor <;> decide +kernel
  refine ⟨rfl, rfl, hnames, by decide +kernel, (isIdentifier_aliased_iff rfl rfl hnames).mpr ?_⟩
  have hlater : ∀ column ∈ block.projection.preview.drop 1,
      ∀ name ∈ column.expression.expression.propertyName?, isIdentifier name = true := by
    decide +kernel
  rintro (_ | number) column name hcolumn ⟨-, -, -, hproperty⟩ hname
  · rfl
  · have hidentifier := hlater column ?_ name hproperty
    · rw [hname] at hidentifier
      cases hidentifier
    · rw [List.mem_iff_getElem?]
      exact ⟨number, by rw [List.getElem?_drop, Nat.add_comm, hcolumn]⟩

/-- Two properties have the same name, in which there is a space, and the second
one is shown with the name and a number. -/
theorem Block.shown_alias_spaced :
    let blog := Expr.objectReference "Blog" "c"
    let spaced := Projected.scalar (.property blog "Display Name" .string)
    let author := Projected.scalar
      (.property (.property blog "Author" .object) "Display Name" .string)
    let mapping : Mapping Projected := ⟨[(⟨[.index 0]⟩, spaced), (⟨[.index 1]⟩, author)]⟩
    let block := (forEntity .default "Blog").withProjection (.pending mapping)
    NamesIdentified mapping.entries ∧ block.singleValue = false ∧
      block.render 4 = "SELECT c[\"Display Name\"], c[\"Author\"][\"Display Name\"] AS " ++
        "Display Name0\nFROM root c" ∧
      ∃ column ∈ block.aliased, column.aliasName = "Display Name0" ∧
        isIdentifier column.aliasName = false := by
  intro blog spaced author mapping block
  have hnames : NamesIdentified mapping.entries := by
    constructor <;> decide +kernel
  exact ⟨hnames, rfl, by decide +kernel, by decide +kernel⟩

end DocumentQuery
