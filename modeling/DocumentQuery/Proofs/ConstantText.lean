import DocumentQuery.Proofs.JsonText
import DocumentQuery.Proofs.ShownNames
/-!
# The texts of constants

The text of a value is closed in itself and shows no names
(`Json.shows_compact`). Strings are literals whatever they hold, because every
quote, backslash and line feed in them is escaped. A number may have one minus
sign before its digits and one before those of its exponent, and neither is
followed by another one.
-/

namespace DocumentQuery

open Text

namespace Json

/-! ## Strings -/

theorem simpleEscape?_lineFeed : simpleEscape? '\n' = none := rfl

/-- An escaped character stays within the literal. -/
theorem read?_escapeChar (c : Char) : read? .literal (escapeChar c) = some ([], .literal) := by
  rcases escapeChar_cases c with ⟨letter, -, hletter, hc⟩ | ⟨hcontrol, hc⟩ | ⟨hq, hb, hge, hc⟩
  · have hfeed : letter ≠ '\n' := by
      rintro rfl
      rw [simpleEscape?_lineFeed] at hletter
      cases hletter
    simp [hc, read?, Text.step?, hfeed]
  · have hdigit : ∀ n : Fin 16, Text.step? .literal (hexDigit n) = some ([], .literal) := by
      decide
    have hhigh := hdigit ⟨c.toNat / 16, by omega⟩
    have hlow := hdigit ⟨c.toNat % 16, by omega⟩
    have hunit : ∀ rest, read? .literal ('\\' :: 'u' :: '0' :: '0' :: rest) =
        read? .literal rest := by
      intro rest
      simp [read?, Text.step?]
    rw [hc, hunit, read?_cons hhigh, read?_cons hlow]
    rfl
  · have hfeed : c ≠ '\n' := by
      rintro rfl
      exact hge (by decide)
    simp [hc, read?, Text.step?, hq, hb, hfeed]

theorem read?_escape (text : List Char) : read? .literal (escape text) = some ([], .literal) := by
  induction text with
  | nil => rfl
  | cons c rest ih =>
      rw [escape_cons, read?_append, read?_escapeChar, Option.bind_some, ih]
      rfl

/-- A quoted string is one literal. -/
theorem read?_quoted (text : String) :
    read? .outside (quoted text).toList = some ([.literal], .outside) := by
  have hopen : Text.step? .outside '"' = some ([], .literal) := rfl
  have hlist : (quoted text).toList = '"' :: (escape text.toList ++ ['"']) := by simp [quoted]
  rw [hlist, read?_cons hopen, read?_append, read?_escape]
  rfl

/-- Escaped text does not hold the quote that ends it. -/
theorem escape_ne_append_quote (text other rest : List Char) :
    escape text ≠ escape other ++ '"' :: rest := by
  intro h
  have hread := read?_escape text
  have hclose : Text.step? .literal '"' = some ([.literal], .outside) := rfl
  rw [h, read?_append, read?_escape, Option.bind_some, read?_cons hclose] at hread
  simp at hread

theorem quoted_injective {a b : String} (h : quoted a = quoted b) : a = b := by
  have htokens : ∀ text : String, tokensFrom? [] .between (quoted text).toList =
      some [.string (some text)] := by
    intro text
    have hquoted := tokensFrom?_quoted text [] []
    rwa [List.append_nil] at hquoted
  have hsame := htokens a
  rw [h, htokens b] at hsame
  cases hsame
  rfl

/-- A quoted string and its end are told by a text that begins with it. -/
theorem quoted_append_inj {a b : String} {s t : List Char}
    (h : (quoted a).toList ++ s = (quoted b).toList ++ t) : a = b ∧ s = t := by
  have hlist : ∀ (text : String) (rest : List Char),
      (quoted text).toList ++ rest = '"' :: (escape text.toList ++ '"' :: rest) := by
    intro text rest
    simp [quoted]
  have hescaped : escape a.toList = escape b.toList ∧ s = t := by
    rw [hlist, hlist] at h
    rcases List.append_eq_append_iff.mp (List.cons.inj h).2 with ⟨more, hb, hs⟩ | ⟨more, ha, ht⟩
    · cases more with
      | nil => exact ⟨by simpa using hb.symm, (List.cons.inj hs).2⟩
      | cons c more =>
          obtain ⟨rfl, -⟩ := List.cons.inj hs
          exact absurd hb (escape_ne_append_quote _ _ _)
    · cases more with
      | nil => exact ⟨by simpa using ha, (List.cons.inj ht).2.symm⟩
      | cons c more =>
          obtain ⟨rfl, -⟩ := List.cons.inj ht
          exact absurd ha (escape_ne_append_quote _ _ _)
  refine ⟨quoted_injective ?_, hescaped.2⟩
  rw [quoted, quoted, hescaped.1]

end Json

/-! ## Numbers -/

namespace Decimal

theorem inert_of_isDigit {c : Char} (h : c.isDigit = true) : Inert c :=
  inert_of_continuesIdentifier (by simp [continuesIdentifier, Char.isAlphanum, h])

theorem inert_of_mem_toDigits {n : Nat} : ∀ c ∈ Nat.toDigits 10 n, Inert c := fun _ hc =>
  inert_of_isDigit (Nat.isDigit_of_mem_toDigits (by decide) (by decide) hc)

theorem inert_of_mem_zeros {count : Nat} : ∀ c ∈ zeros count, Inert c := by
  intro c hc
  rw [List.eq_of_mem_replicate hc]
  rfl

/-- A minus sign makes no difference before digits. -/
theorem read?_sign {c : Char} (hc : Inert c) (rest : List Char) :
    read? .outside ('-' :: c :: rest) = read? .outside (c :: rest) := by
  have hsign : Text.step? .outside '-' = some ([], .minus) := rfl
  rw [read?_cons hsign, read?_minus hc.ne_minus]
  simp

/-- A numeral makes no tokens, and it does not begin with a minus sign. -/
def Unsigned (text : List Char) : Prop :=
  (∃ c rest, text = c :: rest ∧ Inert c) ∧ read? .outside text = some ([], .outside)

theorem unsigned_of_forall {text : List Char} (hne : text ≠ []) (h : ∀ c ∈ text, Inert c) :
    Unsigned text := by
  obtain ⟨c, rest, rfl⟩ := List.exists_cons_of_ne_nil hne
  exact ⟨⟨c, rest, rfl, h c (by simp)⟩, read?_of_forall h⟩

theorem Unsigned.read?_signed {text : List Char} (h : Unsigned text) (negative : Bool) :
    read? .outside (if negative then '-' :: text else text) = some ([], .outside) := by
  obtain ⟨⟨c, rest, rfl, hc⟩, hread⟩ := h
  cases negative with
  | true => exact (read?_sign hc rest).trans hread
  | false => exact hread

theorem unsigned_toDigits (n : Nat) : Unsigned (Nat.toDigits 10 n) :=
  unsigned_of_forall Nat.toDigits_ne_nil inert_of_mem_toDigits

theorem unsigned_positional {digits : List Char} (h : ∀ c ∈ digits, Inert c) (exponent : Int) :
    Unsigned (positional digits exponent) := by
  have hpoint : Inert '.' := rfl
  have hzero : Inert '0' := rfl
  unfold positional
  split
  · refine unsigned_of_forall (by simp) ?_
    simp only [List.forall_mem_append, List.forall_mem_cons]
    exact ⟨⟨h, inert_of_mem_zeros⟩, hpoint, hzero, by simp⟩
  · dsimp only
    split
    · refine unsigned_of_forall (by simp) ?_
      simp only [List.forall_mem_append, List.forall_mem_cons]
      exact ⟨fun c hc => h c (List.mem_of_mem_take hc), hpoint,
        fun c hc => h c (List.mem_of_mem_drop hc)⟩
    · refine unsigned_of_forall (by simp) ?_
      simp only [List.forall_mem_append, List.forall_mem_cons]
      exact ⟨⟨hzero, hpoint, inert_of_mem_zeros⟩, h⟩

theorem unsigned_withExponent {digits : List Char} (hne : digits ≠ []) (h : ∀ c ∈ digits, Inert c)
    (power : Int) : Unsigned (withExponent digits power) := by
  have hpoint : Inert '.' := rfl
  obtain ⟨c, rest, htext, hc, hrest⟩ : ∃ c rest, withExponent digits power =
      c :: rest ++ 'e' :: (if power < 0 then '-' else '+') :: Nat.toDigits 10 power.natAbs ∧
        Inert c ∧ ∀ other ∈ rest, Inert other := by
    rcases digits with _ | ⟨first, _ | ⟨second, rest⟩⟩
    · exact absurd rfl hne
    · exact ⟨first, [], rfl, h first (by simp), by simp⟩
    · simp only [List.forall_mem_cons] at h
      exact ⟨first, '.' :: second :: rest, rfl, h.1,
        List.forall_mem_cons.mpr ⟨hpoint, List.forall_mem_cons.mpr h.2⟩⟩
  have hexponent : read? .outside ('e' :: (if power < 0 then '-' else '+') ::
      Nat.toDigits 10 power.natAbs) = some ([], .outside) := by
    have hletter : Inert 'e' := rfl
    have hplus : Inert '+' := rfl
    rw [read?_skip hletter]
    split
    · exact (unsigned_toDigits _).read?_signed true
    · rw [read?_skip hplus]
      exact (unsigned_toDigits _).2
  rw [htext]
  refine ⟨⟨c, _, rfl, hc⟩, ?_⟩
  rw [read?_quiet (List.forall_mem_cons.mpr ⟨hc, hrest⟩), hexponent]

theorem unsigned_write (layout : Layout) (decimal : Scientific) :
    Unsigned (write layout decimal) := by
  unfold write
  dsimp only
  split
  · exact unsigned_positional inert_of_mem_toDigits _
  · exact unsigned_withExponent Nat.toDigits_ne_nil inert_of_mem_toDigits _

theorem quiet_floatText (x : Binary64) : Quiet (floatText x) := by
  have hzero : Unsigned ['0', '.', '0'] :=
    ⟨⟨'0', ['.', '0'], rfl, rfl⟩, rfl⟩
  have hmagnitude : Unsigned (if x.units = 0 then ['0', '.', '0']
      else write layout (shortest x.units)) := by
    split
    · exact hzero
    · exact unsigned_write _ _
  rw [Quiet, floatText, String.toList_ofList]
  exact hmagnitude.read?_signed x.negative

end Decimal

namespace Json

theorem quiet_numberText : ∀ n : Number, Quiet (numberText n)
  | .integer n => by
      rw [Quiet, toList_integerText]
      exact (Decimal.unsigned_toDigits _).read?_signed _
  | .float x => Decimal.quiet_floatText x

/-! ## Values -/

variable {faithful : Prop}

theorem shows_quoted (text : String) : Shows faithful (quoted text) [] :=
  ⟨[.literal], ⟨[.literal], .outside, [], read?_quoted text, .outside, rfl⟩, .literal⟩

theorem separates_comma : Separates "," :=
  ⟨rfl, _, _, rfl, rfl⟩

theorem separates_colon : Separates ":" :=
  ⟨rfl, _, _, rfl, rfl⟩

mutual

/-- The text of a value shows no names. -/
theorem shows_compact : ∀ value : Json, Shows faithful value.compact []
  | .null => .of_quiet rfl
  | .bool true => .of_quiet rfl
  | .bool false => .of_quiet rfl
  | .number n => .of_quiet (quiet_numberText n)
  | .string s => shows_quoted s
  | .array items => ((shows_compactItems items).intercalate separates_comma).enclose .square
  | .object fields => ((shows_compactFields fields).intercalate separates_comma).enclose .curly

theorem shows_compactItems : ∀ items : List Json, ShowsAll faithful (compactItems items) []
  | [] => .nil
  | item :: rest => .cons (shows_compact item) (shows_compactItems rest)

theorem shows_compactFields : ∀ fields : List (String × Json),
    ShowsAll faithful (compactFields fields) []
  | [] => .nil
  | (name, value) :: rest =>
      .cons ((shows_quoted name).between separates_colon (shows_compact value))
        (shows_compactFields rest)

end

end Json

end DocumentQuery
