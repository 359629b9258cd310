import DocumentQuery.Json.Printer
import DocumentQuery.Json.Reader
import Mathlib.Data.List.Forall2
import Mathlib.Data.List.TakeWhile
/-!
# The text of a value

The text of a value is read to the syntax tree of the value
(`Tree.ofText?_compact`), if every number in it is legible, which is to say that
the text of the number is read to the number. Whole numbers of 64 bits are
(`Number.legible_integer`); a floating point number need not be, because the
reader rounds twice. Then the tree is that of the value with the numbers that are
read in their place (`Tree.ofText?_compact_of_readable`).

A text is scanned from the left, so everything is stated with the characters
that follow: the scan of a value followed by a comma or a closing bracket goes on
behind the value with its tokens found, and reading these tokens goes on with
the tree of the value in its place.
-/

namespace DocumentQuery

namespace Json

/-! ## Strings -/

theorem tokensFrom?_cons {found tokens : List Token} {scan next : Scan} {c : Char}
    (h : step? scan c = some (tokens, next)) (rest : List Char) :
    tokensFrom? found scan (c :: rest) = tokensFrom? (tokens.reverse ++ found) next rest := by
  rw [tokensFrom?, h]

/-- A character is escaped by one letter or as a 16-bit unit, or not at all. -/
theorem escapeChar_cases (c : Char) :
    (∃ letter, letter ≠ 'u' ∧ simpleEscape? letter = some c ∧ escapeChar c = ['\\', letter]) ∨
      (c.toNat < 32 ∧ escapeChar c =
        ['\\', 'u', '0', '0', hexDigit (c.toNat / 16), hexDigit (c.toNat % 16)]) ∨
      (c ≠ '"' ∧ c ≠ '\\' ∧ ¬ c.toNat < 32 ∧ escapeChar c = [c]) := by
  by_cases hquote : c = '"'
  · exact .inl ⟨'"', by subst hquote; decide⟩
  by_cases hbackslash : c = '\\'
  · exact .inl ⟨'\\', by subst hbackslash; decide⟩
  by_cases hfeed : c = '\n'
  · exact .inl ⟨'n', by subst hfeed; decide⟩
  by_cases hreturn : c = '\r'
  · exact .inl ⟨'r', by subst hreturn; decide⟩
  by_cases htab : c = '\t'
  · exact .inl ⟨'t', by subst htab; decide⟩
  by_cases hback : c.toNat = 8
  · obtain rfl : c = Char.ofNat 8 := by rw [← hback, Char.ofNat_toNat]
    exact .inl ⟨'b', by decide⟩
  by_cases hform : c.toNat = 12
  · obtain rfl : c = Char.ofNat 12 := by rw [← hform, Char.ofNat_toNat]
    exact .inl ⟨'f', by decide⟩
  by_cases hcontrol : c.toNat < 32
  · refine .inr (.inl ⟨hcontrol, ?_⟩)
    simp [escapeChar, hquote, hbackslash, hfeed, hreturn, htab, hback, hform, hcontrol]
  · refine .inr (.inr ⟨hquote, hbackslash, hcontrol, ?_⟩)
    simp [escapeChar, hquote, hbackslash, hfeed, hreturn, htab, hback, hform, hcontrol]

/-- The part of a string that the escaped form of a character is read as. -/
def piece (c : Char) : Piece :=
  if (escapeChar c).length = 6 then .unit c.toNat else .char c

theorem hexValue?_hexDigit {n : Nat} (h : n < 16) : hexValue? (hexDigit n) = some n := by
  have hall : ∀ n : Fin 16, hexValue? (hexDigit n) = some n.val := by decide
  exact hall ⟨n, h⟩

theorem tokensFrom?_escapeChar (c : Char) (found : List Token) (seen : List Piece)
    (rest : List Char) :
    tokensFrom? found (.text seen) (escapeChar c ++ rest) =
      tokensFrom? found (.text (piece c :: seen)) rest := by
  rcases escapeChar_cases c with ⟨letter, hunit, hletter, hc⟩ | ⟨hcontrol, hc⟩ | ⟨hq, hb, hge, hc⟩
  · simp [piece, hc, tokensFrom?, step?, hunit, hletter]
  · have hhigh : hexValue? (hexDigit (c.toNat / 16)) = some (c.toNat / 16) :=
      hexValue?_hexDigit (by omega)
    have hlow : hexValue? (hexDigit (c.toNat % 16)) = some (c.toNat % 16) :=
      hexValue?_hexDigit (by omega)
    have hzero : hexValue? '0' = some 0 := by decide
    have hcode : c.toNat / 16 * 16 + c.toNat % 16 = c.toNat := by omega
    simp [piece, hc, tokensFrom?, step?, hhigh, hlow, hzero, hcode]
  · simp [piece, hc, tokensFrom?, step?, hq, hb, hge]

theorem tokensFrom?_escape (text : List Char) (found : List Token) (seen : List Piece)
    (rest : List Char) :
    tokensFrom? found (.text seen) (escape text ++ rest) =
      tokensFrom? found (.text ((text.map piece).reverse ++ seen)) rest := by
  induction text generalizing seen with
  | nil => rfl
  | cons c text ih =>
      rw [escape_cons, List.append_assoc, tokensFrom?_escapeChar, ih, List.map_cons,
        List.reverse_cons, List.append_assoc, List.singleton_append]

theorem piece_cases (c : Char) :
    piece c = .char c ∨ piece c = .unit c.toNat ∧ c.toNat < 32 := by
  rcases escapeChar_cases c with ⟨letter, -, -, hc⟩ | ⟨hcontrol, hc⟩ | ⟨-, -, -, hc⟩
  · exact .inl (by simp [piece, hc])
  · exact .inr ⟨by simp [piece, hc], hcontrol⟩
  · exact .inl (by simp [piece, hc])

theorem joinPieces?_map_piece (text : List Char) : joinPieces? (text.map piece) = some text := by
  induction text with
  | nil => rfl
  | cons c rest ih =>
      rw [List.map_cons]
      rcases piece_cases c with hc | ⟨hc, hcontrol⟩
      · rw [hc, joinPieces?, ih, Option.map_some]
      · have hleading : isLeading c.toNat = false := by simp [isLeading]; omega
        have htrailing : isTrailing c.toNat = false := by simp [isTrailing]; omega
        have hjoin : joinPieces? (.unit c.toNat :: rest.map piece) =
            (joinPieces? (rest.map piece)).map (Char.ofNat c.toNat :: ·) := by
          cases rest.map piece with
          | nil => simp [joinPieces?, hleading, htrailing]
          | cons next pieces =>
              cases next <;> simp [joinPieces?, hleading, htrailing]
        rw [hc, hjoin, ih, Option.map_some, Char.ofNat_toNat]

theorem tokensFrom?_quoted (text : String) (found : List Token) (rest : List Char) :
    tokensFrom? found .between ((quoted text).toList ++ rest) =
      tokensFrom? (.string (some text) :: found) .between rest := by
  have hopen : step? .between '"' = some ([], .text []) := rfl
  have hclose : ∀ seen, step? (.text seen) '"' = some ([stringToken seen.reverse], .between) := by
    intro seen
    simp [step?]
  have htoken : stringToken (text.toList.map piece) = .string (some text) := by
    rw [stringToken, joinPieces?_map_piece, Option.map_some, String.ofList_toList]
  have hlist : (quoted text).toList ++ rest = '"' :: (escape text.toList ++ '"' :: rest) := by
    simp [quoted]
  rw [hlist, tokensFrom?_cons hopen, tokensFrom?_escape, tokensFrom?_cons (hclose _),
    List.append_nil, List.reverse_reverse, htoken]
  rfl

/-! ## Words and numbers -/

/-- What may follow a value: nothing, or a character that ends it. -/
def Ends : List Char → Prop
  | [] => True
  | c :: _ => c = ',' ∨ c = ']' ∨ c = '\x7d'

theorem ends_comma (rest : List Char) : Ends (',' :: rest) :=
  Or.inl rfl

/-- The text is scanned to the tokens wherever a value may end behind it. -/
def Scans (text : List Char) (tokens : List Token) : Prop :=
  ∀ (found : List Token) (rest : List Char), Ends rest →
    tokensFrom? found .between (text ++ rest) =
      tokensFrom? (tokens.reverse ++ found) .between rest

/-- A word or number is complete where a value may end. -/
theorem tokensFrom?_of_ends {scan : Scan} {token : Token} (found : List Token)
    {rest : List Char} (hfinish : finish? scan = some [token])
    (hstep : ∀ c tokens next, isNumberChar c = false → c.isLower = false →
      begin? c = some (tokens, next) → step? scan c = some (token :: tokens, next))
    (hends : Ends rest) :
    tokensFrom? found scan rest = tokensFrom? (token :: found) .between rest := by
  cases rest with
  | nil =>
      rw [tokensFrom?, hfinish]
      simp [tokensFrom?, finish?]
  | cons c rest =>
      have hbegin : isNumberChar c = false ∧ c.isLower = false ∧
          ∃ tokens next, begin? c = some (tokens, next) := by
        rcases hends with rfl | rfl | rfl <;> exact ⟨rfl, rfl, _, _, rfl⟩
      obtain ⟨hnumber, hlower, tokens, next, hbegin⟩ := hbegin
      have hbetween : step? .between c = some (tokens, next) := hbegin
      rw [tokensFrom?_cons (hstep c tokens next hnumber hlower hbegin),
        tokensFrom?_cons hbetween]
      simp

theorem scans_word {word : List Char} {token : Token} (hword : wordToken? word = some token)
    (hscan : ∀ found rest, tokensFrom? found .between (word ++ rest) =
      tokensFrom? found (.word word.reverse) rest) :
    Scans word [token] := by
  intro found rest hends
  rw [hscan]
  refine tokensFrom?_of_ends found ?_ ?_ hends
  · rw [finish?, List.reverse_reverse, hword, Option.map_some]
  · intro c tokens next _ hlower hbegin
    simp [step?, hlower, hword, hbegin]

theorem scans_null : Scans "null".toList [.null] :=
  scans_word rfl fun _ _ => rfl

theorem scans_true : Scans "true".toList [.bool true] :=
  scans_word rfl fun _ _ => rfl

theorem scans_false : Scans "false".toList [.bool false] :=
  scans_word rfl fun _ _ => rfl

theorem tokensFrom?_numberChars {text : List Char} (h : ∀ c ∈ text, isNumberChar c = true)
    (found : List Token) (seen rest : List Char) :
    tokensFrom? found (.number seen) (text ++ rest) =
      tokensFrom? found (.number (text.reverse ++ seen)) rest := by
  induction text generalizing seen with
  | nil => rfl
  | cons c text ih =>
      obtain ⟨hc, htext⟩ := List.forall_mem_cons.mp h
      have hstep : step? (.number seen) c = some ([], .number (c :: seen)) := by
        simp [step?, hc]
      rw [List.cons_append, tokensFrom?_cons hstep, List.reverse_nil, List.nil_append, ih htext,
        List.reverse_cons, List.append_assoc, List.singleton_append]

/-! ## Numerals -/

theorem isNumberChar_of_isDigit {c : Char} (h : c.isDigit = true) : isNumberChar c = true := by
  simp [isNumberChar, h]

theorem isNumberChar_of_spanDigits {text digits rest : List Char}
    (h : spanDigits text = (digits, rest)) (hrest : ∀ c ∈ rest, isNumberChar c = true) :
    ∀ c ∈ text, isNumberChar c = true := by
  obtain ⟨rfl, rfl⟩ := Prod.mk.inj h
  intro c hc
  rw [← List.takeWhile_append_dropWhile (p := Char.isDigit) (l := text)] at hc
  rcases List.mem_append.mp hc with hdigit | hother
  · exact isNumberChar_of_isDigit (List.all_eq_true.mp List.all_takeWhile c hdigit)
  · exact hrest c hother

theorem isNumberChar_of_exponentDigits? {negative : Bool} {text : List Char}
    {exponent : Option Int} (h : exponentDigits? negative text = some exponent) :
    ∀ c ∈ text, isNumberChar c = true := by
  unfold exponentDigits? at h
  split at h
  · rename_i hspan
    exact isNumberChar_of_spanDigits hspan (by simp)
  · simp at h

theorem isNumberChar_of_exponent? {text : List Char} {exponent : Option Int}
    (h : exponent? text = some exponent) : ∀ c ∈ text, isNumberChar c = true := by
  unfold exponent? at h
  split at h
  · simp
  · split at h
    · rename_i c rest he
      have hfirst : isNumberChar c = true := by rcases he with rfl | rfl <;> rfl
      refine List.forall_mem_cons.mpr ⟨hfirst, ?_⟩
      split at h
      · exact List.forall_mem_cons.mpr ⟨rfl, isNumberChar_of_exponentDigits? h⟩
      · exact List.forall_mem_cons.mpr ⟨rfl, isNumberChar_of_exponentDigits? h⟩
      · exact isNumberChar_of_exponentDigits? h
    · simp at h

theorem isNumberChar_of_fraction? {text rest : List Char} {fraction : Option (List Char)}
    (h : fraction? text = some (fraction, rest)) (hrest : ∀ c ∈ rest, isNumberChar c = true) :
    ∀ c ∈ text, isNumberChar c = true := by
  unfold fraction? at h
  split at h
  · split at h
    · simp at h
    · rename_i hspan
      obtain ⟨-, rfl⟩ := Prod.mk.inj (Option.some.inj h)
      exact List.forall_mem_cons.mpr ⟨rfl, isNumberChar_of_spanDigits hspan hrest⟩
  · obtain ⟨-, rfl⟩ := Prod.mk.inj (Option.some.inj h)
    exact hrest

/-- Digits were found at the front only if there is one. -/
theorem exists_digit_of_spanDigits {text digits rest : List Char}
    (h : spanDigits text = (digits, rest)) (hne : digits ≠ []) :
    ∃ c tail, text = c :: tail ∧ c.isDigit = true := by
  obtain ⟨rfl, rfl⟩ := Prod.mk.inj h
  cases text with
  | nil => exact absurd rfl hne
  | cons c tail =>
      exact ⟨c, tail, rfl, Decidable.byContradiction fun hdigit =>
        hne (List.takeWhile_cons_of_neg hdigit)⟩

/-- A numeral begins with a digit or a minus sign. -/
theorem numeral?_chars {text : List Char} {numeral : Numeral} (h : numeral? text = some numeral) :
    (∀ c ∈ text, isNumberChar c = true) ∧
      ∃ c rest, text = c :: rest ∧ (c.isDigit || c == '-') = true := by
  unfold numeral? at h
  split at h
  rename_i negative unsigned hsign
  have hunsigned : (∀ c ∈ unsigned, isNumberChar c = true) ∧
      ∃ c rest, unsigned = c :: rest ∧ c.isDigit = true := by
    split at h
    · simp at h
    · simp at h
    · rename_i whole rest hempty _ hspan
      have hwhole : whole ≠ [] := by
        rintro rfl
        exact hempty rfl
      split at h
      · simp at h
      · rename_i fraction rest' hfraction
        obtain ⟨exponent, hexponent, -⟩ := Option.map_eq_some_iff.mp h
        have hrest := isNumberChar_of_fraction? hfraction (isNumberChar_of_exponent? hexponent)
        exact ⟨isNumberChar_of_spanDigits hspan hrest, exists_digit_of_spanDigits hspan hwhole⟩
  obtain ⟨hchars, c, tail, rfl, hdigit⟩ := hunsigned
  split at hsign
  · obtain ⟨-, rfl⟩ := Prod.mk.inj hsign
    exact ⟨List.forall_mem_cons.mpr ⟨rfl, hchars⟩, '-', _, rfl, rfl⟩
  · obtain ⟨-, rfl⟩ := Prod.mk.inj hsign
    exact ⟨hchars, c, tail, rfl, by rw [hdigit, Bool.true_or]⟩

end Json

open Json

/-- A number is legible if its text is read to it. -/
def Number.Legible (n : Number) : Prop :=
  ∃ numeral, numeral? (numberText n).toList = some numeral ∧ numeral.value? = some n

/-- The number that the text of a number is read as, for a whole number that number
itself. -/
def Number.reread : Number → Number
  | .integer n => .integer n
  | .float x => ((numeral? (Decimal.floatText x).toList).bind Numeral.value?).getD (.float x)

/-- A number is readable if its text has a value at all. A whole number has to be
legible. -/
def Number.Readable (n : Number) : Prop :=
  ∃ numeral, numeral? (numberText n).toList = some numeral ∧ numeral.value? = some n.reread

theorem Number.Legible.reread_eq {n : Number} (h : n.Legible) : n.reread = n := by
  obtain ⟨numeral, hnumeral, hvalue⟩ := h
  cases n with
  | integer n => rfl
  | float x =>
      have htext : numeral? (Decimal.floatText x).toList = some numeral := hnumeral
      rw [reread, htext, Option.bind_some, hvalue, Option.getD_some]

theorem Number.Legible.readable {n : Number} (h : n.Legible) : n.Readable := by
  obtain ⟨numeral, hnumeral, hvalue⟩ := h
  exact ⟨numeral, hnumeral, by rw [hvalue, Legible.reread_eq ⟨numeral, hnumeral, hvalue⟩]⟩

theorem Json.begin?_of_isDigit {c : Char} (h : c.isDigit = true) :
    begin? c = some ([], .number [c]) := by
  have hne : ∀ other : Char, other.isDigit = false → c ≠ other := by
    rintro other hother rfl
    exact Bool.false_ne_true (hother.symm.trans h)
  simp [begin?, h, hne ' ' rfl, hne '\n' rfl, hne '\t' rfl, hne '\r' rfl, hne '[' rfl, hne ']' rfl,
    hne '\x7b' rfl, hne '\x7d' rfl, hne ',' rfl, hne ':' rfl, hne '"' rfl]

theorem Number.Readable.scans {n : Number} (h : n.Readable) :
    Scans (numberText n).toList [.number (some n.reread)] := by
  obtain ⟨numeral, hnumeral, hvalue⟩ := h
  obtain ⟨hchars, c, tail, htext, hfirst⟩ := numeral?_chars hnumeral
  have hbegin : step? .between c = some ([], .number [c]) := by
    rcases Bool.or_eq_true_iff.mp hfirst with hdigit | hminus
    · exact begin?_of_isDigit hdigit
    · rw [eq_of_beq hminus]
      rfl
  have htoken : numberToken? (numberText n).toList = some (.number (some n.reread)) := by
    rw [numberToken?, hnumeral, Option.map_some, hvalue]
  have hseen : (tail.reverse ++ [c]).reverse = (numberText n).toList := by simp [htext]
  intro found rest hends
  have htail := (List.forall_mem_cons.mp (htext ▸ hchars)).2
  rw [htext, List.cons_append, tokensFrom?_cons hbegin, tokensFrom?_numberChars htail]
  refine tokensFrom?_of_ends found ?_ ?_ hends
  · rw [finish?, hseen, htoken, Option.map_some]
  · intro c' tokens next hnumber _ hbegin'
    simp only [step?, hnumber, hseen, htoken, hbegin']
    rfl

theorem Json.digitsValue_toDigits (n : Nat) : digitsValue (Nat.toDigits 10 n) = n := by
  have hfold : digitsValue (Nat.toDigits 10 n) = Nat.ofDigitChars 10 (Nat.toDigits 10 n) 0 := by
    simp only [digitsValue, Nat.ofDigitChars, digitValue, Nat.mul_comm]
    rfl
  rw [hfold, Nat.ofDigitChars_ten_toDigits]

theorem Json.exists_toDigits_eq_cons {n : Nat} (h : 0 < n) :
    ∃ c rest, Nat.toDigits 10 n = c :: rest ∧ c ≠ '0' := by
  induction n using Nat.strongRecOn with
  | ind n ih =>
      rw [Nat.toDigits_eq_if (by decide)]
      split
      · rename_i hdigit
        refine ⟨n.digitChar, [], rfl, ?_⟩
        have hall : ∀ n : Fin 10, 0 < n.val → n.val.digitChar ≠ '0' := by decide
        exact hall ⟨n, hdigit⟩ h
      · obtain ⟨c, rest, hdigits, hc⟩ := ih (n / 10) (by omega) (by omega)
        exact ⟨c, rest ++ [(n % 10).digitChar], by rw [hdigits, List.cons_append], hc⟩

theorem Json.spanDigits_toDigits (n : Nat) :
    spanDigits (Nat.toDigits 10 n) = (Nat.toDigits 10 n, []) := by
  have hdigits : ∀ c ∈ Nat.toDigits 10 n, c.isDigit = true := fun c hc =>
    Nat.isDigit_of_mem_toDigits (by decide) (by decide) hc
  simp [spanDigits, List.takeWhile_eq_self_iff.mpr hdigits, List.dropWhile_eq_nil_iff.mpr hdigits]

/-- Digits are a numeral if they do not begin with a zero too many. -/
theorem Json.numeral?_of_digits {negative : Bool} {c : Char} {rest : List Char}
    (hspan : spanDigits (c :: rest) = (c :: rest, [])) (hzero : c = '0' → rest = [])
    (hminus : c ≠ '-') :
    numeral? (if negative then '-' :: c :: rest else c :: rest) =
      some ⟨negative, c :: rest, none, none⟩ := by
  unfold numeral?
  split
  rename_i sign unsigned hsign
  have hsplit : sign = negative ∧ unsigned = c :: rest := by
    cases negative with
    | true =>
        obtain ⟨rfl, rfl⟩ := Prod.mk.inj hsign
        exact ⟨rfl, rfl⟩
    | false =>
        split at hsign
        · rename_i hfirst
          exact absurd (List.cons.inj hfirst).1 hminus
        · obtain ⟨rfl, rfl⟩ := Prod.mk.inj hsign
          exact ⟨rfl, rfl⟩
  obtain ⟨rfl, rfl⟩ := hsplit
  rw [hspan]
  split
  · simp_all
  · simp_all
  · rename_i hwhole
    obtain ⟨rfl, rfl⟩ := Prod.mk.inj hwhole
    rfl

theorem Json.numeral?_toDigits (n : Nat) (negative : Bool) :
    numeral? (if negative then '-' :: Nat.toDigits 10 n else Nat.toDigits 10 n) =
      some ⟨negative, Nat.toDigits 10 n, none, none⟩ := by
  have hspan := spanDigits_toDigits n
  rcases Nat.eq_zero_or_pos n with rfl | hpos
  · cases negative <;> rfl
  · obtain ⟨c, rest, hdigits, hc⟩ := exists_toDigits_eq_cons hpos
    have hdigit : c.isDigit = true := Nat.isDigit_of_mem_toDigits (b := 10) (n := n) (by decide)
      (by decide) (by simp [hdigits])
    rw [hdigits] at hspan ⊢
    refine numeral?_of_digits hspan (fun h => absurd h hc) ?_
    rintro rfl
    simp at hdigit

theorem Json.toList_integerText (n : Int) :
    (numberText (.integer n)).toList =
      if decide (n < 0) then '-' :: Nat.toDigits 10 n.natAbs else Nat.toDigits 10 n.natAbs := by
  have hrepr : numberText (.integer n) = n.repr := rfl
  rw [hrepr, Int.repr_eq_if]
  by_cases hsign : 0 ≤ n
  · have habs : n.toNat = n.natAbs := by omega
    rw [if_pos hsign, if_neg (by simpa using hsign), Nat.repr_eq_ofList_toDigits,
      String.toList_ofList, habs]
  · have habs : (-n).toNat = n.natAbs := by omega
    rw [if_neg hsign, if_pos (by simpa using hsign), habs]
    simp [Nat.repr_eq_ofList_toDigits]

/-- Whole numbers that fit into 64 bits, with a sign or without, are legible. -/
theorem Number.legible_integer {n : Int} (hlow : -((wordLimit / 2 : Nat) : Int) ≤ n)
    (hhigh : n < wordLimit) : (Number.integer n).Legible := by
  refine ⟨_, toList_integerText n ▸ numeral?_toDigits n.natAbs (decide (n < 0)), ?_⟩
  have hlimit : wordLimit = 18446744073709551616 := rfl
  rw [hlimit] at hlow hhigh
  simp only [Numeral.value?, digitsValue_toDigits, decide_eq_true_eq, hlimit]
  split
  · rename_i hneg
    have hvalue : -(n.natAbs : Int) = n := by omega
    rw [if_pos (by omega), hvalue]
  · rename_i hpos
    have hvalue : (n.natAbs : Int) = n := by omega
    rw [if_pos (by omega), hvalue]

/-! ## Values -/

namespace Json

mutual

/-- The numbers in a value. -/
def numbers : Json → List Number
  | .null => []
  | .bool _ => []
  | .number n => [n]
  | .string _ => []
  | .array items => numbersOfItems items
  | .object fields => numbersOfFields fields

def numbersOfItems : List Json → List Number
  | [] => []
  | item :: rest => item.numbers ++ numbersOfItems rest

def numbersOfFields : List (String × Json) → List Number
  | [] => []
  | (_, value) :: rest => value.numbers ++ numbersOfFields rest

end

/-- A value is legible if all numbers in it are. -/
def Legible (json : Json) : Prop :=
  ∀ n ∈ json.numbers, n.Legible

def Readable (json : Json) : Prop :=
  ∀ n ∈ json.numbers, n.Readable

theorem Legible.readable {json : Json} (h : json.Legible) : json.Readable :=
  fun n hn => (h n hn).readable

mutual

/-- The value with the numbers that its numbers are read as. -/
def reread : Json → Json
  | .null => .null
  | .bool b => .bool b
  | .number n => .number n.reread
  | .string s => .string s
  | .array items => .array (rereadItems items)
  | .object fields => .object (rereadFields fields)

def rereadItems : List Json → List Json
  | [] => []
  | item :: rest => item.reread :: rereadItems rest

def rereadFields : List (String × Json) → List (String × Json)
  | [] => []
  | (name, value) :: rest => (name, value.reread) :: rereadFields rest

end

mutual

theorem Legible.reread_eq : ∀ {json : Json}, json.Legible → json.reread = json
  | .null, _ => rfl
  | .bool _, _ => rfl
  | .number n, h => congrArg number (h n (by simp [numbers])).reread_eq
  | .string _, _ => rfl
  | .array _, h => congrArg array (rereadItems_eq h)
  | .object _, h => congrArg object (rereadFields_eq h)

theorem rereadItems_eq : ∀ {items : List Json}, (∀ n ∈ numbersOfItems items, n.Legible) →
    rereadItems items = items
  | [], _ => rfl
  | item :: rest, h => by
      obtain ⟨hitem, hrest⟩ := List.forall_mem_append.mp h
      rw [rereadItems, Legible.reread_eq hitem, rereadItems_eq hrest]

theorem rereadFields_eq : ∀ {fields : List (String × Json)},
    (∀ n ∈ numbersOfFields fields, n.Legible) → rereadFields fields = fields
  | [], _ => rfl
  | (name, value) :: rest, h => by
      obtain ⟨hvalue, hrest⟩ := List.forall_mem_append.mp h
      rw [rereadFields, Legible.reread_eq hvalue, rereadFields_eq hrest]

end

mutual

/-- The tokens of the text of a value. -/
def tokens : Json → List Token
  | .null => [.null]
  | .bool b => [.bool b]
  | .number n => [.number (some n)]
  | .string s => [.string (some s)]
  | .array items => .openArray :: ([.comma].intercalate (tokensOfItems items) ++ [.closeArray])
  | .object fields =>
    .openObject :: ([.comma].intercalate (tokensOfFields fields) ++ [.closeObject])

def tokensOfItems : List Json → List (List Token)
  | [] => []
  | item :: rest => item.tokens :: tokensOfItems rest

def tokensOfFields : List (String × Json) → List (List Token)
  | [] => []
  | (name, value) :: rest =>
    (.string (some name) :: .colon :: value.tokens) :: tokensOfFields rest

end

/-- The items of an array, or the fields of an object, have commas between them. -/
theorem scans_intercalate {texts : List (List Char)} {tokenss : List (List Token)}
    (h : List.Forall₂ Scans texts tokenss) :
    Scans ([','].intercalate texts) ([.comma].intercalate tokenss) := by
  induction h with
  | nil => exact fun _ _ _ => rfl
  | @cons text tokens texts tokenss hfirst hrest ih =>
      cases hrest with
      | nil => simpa using hfirst
      | cons =>
          intro found rest hends
          have hcomma : step? .between ',' = some ([.comma], .between) := rfl
          rw [List.intercalate_cons_cons, List.intercalate_cons_cons, List.append_assoc,
            List.append_assoc, List.singleton_append, hfirst _ _ (ends_comma _),
            tokensFrom?_cons hcomma, ih _ _ hends]
          simp

theorem scans_enclosed {text : List Char} {tokens : List Token} {opening closing : Char}
    {openToken closeToken : Token} (h : Scans text tokens)
    (hopen : step? .between opening = some ([openToken], .between))
    (hclose : step? .between closing = some ([closeToken], .between))
    (hends : ∀ rest, Ends (closing :: rest)) :
    Scans (opening :: (text ++ [closing])) (openToken :: (tokens ++ [closeToken])) := by
  intro found rest _
  rw [List.cons_append, tokensFrom?_cons hopen, List.append_assoc, List.singleton_append,
    h _ _ (hends rest), tokensFrom?_cons hclose]
  simp

theorem scans_field {name : String} {text : List Char} {tokens : List Token}
    (h : Scans text tokens) :
    Scans ((quoted name).toList ++ ':' :: text) (.string (some name) :: .colon :: tokens) := by
  intro found rest hends
  have hcolon : step? .between ':' = some ([.colon], .between) := rfl
  rw [List.append_assoc, List.cons_append, tokensFrom?_quoted, tokensFrom?_cons hcolon,
    h _ _ hends]
  simp

mutual

/-- The text of a value is scanned to the tokens of what it is read as. -/
theorem scans_compact : ∀ json : Json, json.Readable →
    Scans json.compact.toList json.reread.tokens
  | .null, _ => scans_null
  | .bool true, _ => scans_true
  | .bool false, _ => scans_false
  | .number n, h => (h n (by simp [numbers])).scans
  | .string s, _ => fun found rest _ => tokensFrom?_quoted s found rest
  | .array items, h => by
      have hitems := scans_intercalate (scans_compactItems items h)
      have htext : (array items).compact.toList =
          '[' :: ([','].intercalate ((compactItems items).map String.toList) ++ [']']) := by
        simp [compact, String.toList_intercalate]
      rw [htext]
      exact scans_enclosed hitems rfl rfl fun _ => Or.inr (Or.inl rfl)
  | .object fields, h => by
      have hfields := scans_intercalate (scans_compactFields fields h)
      have htext : (object fields).compact.toList =
          '\x7b' :: ([','].intercalate ((compactFields fields).map String.toList) ++ ['\x7d']) := by
        simp [compact, String.toList_intercalate]
      rw [htext]
      exact scans_enclosed hfields rfl rfl fun _ => Or.inr (Or.inr rfl)

theorem scans_compactItems : ∀ items : List Json, (∀ n ∈ numbersOfItems items, n.Readable) →
    List.Forall₂ Scans ((compactItems items).map String.toList) (tokensOfItems (rereadItems items))
  | [], _ => .nil
  | item :: rest, h => by
      obtain ⟨hitem, hrest⟩ := List.forall_mem_append.mp h
      exact .cons (scans_compact item hitem) (scans_compactItems rest hrest)

theorem scans_compactFields : ∀ fields : List (String × Json),
    (∀ n ∈ numbersOfFields fields, n.Readable) →
      List.Forall₂ Scans ((compactFields fields).map String.toList)
        (tokensOfFields (rereadFields fields))
  | [], _ => .nil
  | (name, value) :: rest, h => by
      obtain ⟨hvalue, hrest⟩ := List.forall_mem_append.mp h
      have htext : (quoted name ++ ":" ++ value.compact).toList =
          (quoted name).toList ++ ':' :: value.compact.toList := by simp
      refine .cons ?_ (scans_compactFields rest hrest)
      rw [htext]
      exact scans_field (scans_compact value hvalue)

end

/-! ## From tokens to trees -/

theorem treeFrom?_cons {stage next : Stage} {token : Token} (h : advance? stage token = some next)
    (rest : List Token) : treeFrom? stage (token :: rest) = treeFrom? next rest := by
  cases stage <;> rw [treeFrom?, h]

/-- A value may begin at a stage, and is put into what is open around it. -/
def Awaits (stage : Stage) (around : List Frame) : Prop :=
  ∀ token, token ≠ .closeArray → advance? stage token = startValue? around token

theorem awaits_value (around : List Frame) : Awaits (.value around) around :=
  fun _ _ => rfl

theorem awaits_firstItem (around : List Frame) :
    Awaits (.firstItem around) (.array [] :: around) := by
  intro token hne
  cases token with
  | closeArray => exact absurd rfl hne
  | _ => rfl

mutual

/-- The tokens of a value are read to its tree. -/
theorem treeFrom?_tokens : ∀ (json : Json) {stage : Stage} {around : List Frame}
    (rest : List Token), Awaits stage around →
      treeFrom? stage (json.tokens ++ rest) = treeFrom? (place (Tree.ofJson json) around) rest
  | .null, _, _, rest, h => treeFrom?_cons (h .null nofun) rest
  | .bool b, _, _, rest, h => treeFrom?_cons (h (.bool b) nofun) rest
  | .number n, _, _, rest, h => treeFrom?_cons (h (.number n) nofun) rest
  | .string s, _, _, rest, h => treeFrom?_cons (h (.string s) nofun) rest
  | .array [], _, around, rest, h => by
      have hopen := h .openArray nofun
      have hclose : advance? (.firstItem around) .closeArray = some (place (.array []) around) :=
        rfl
      rw [tokens, tokensOfItems, List.intercalate_nil, List.cons_append, treeFrom?_cons hopen]
      exact treeFrom?_cons hclose rest
  | .array (item :: items), _, around, rest, h => by
      have hopen := h .openArray nofun
      have hitems := treeFrom?_tokensOfItems (item :: items) (List.cons_ne_nil _ _) [] rest
        (awaits_firstItem around)
      rw [tokens, List.cons_append, treeFrom?_cons hopen, List.append_assoc]
      exact hitems
  | .object [], _, around, rest, h => by
      have hopen := h .openObject nofun
      have hclose : advance? (.firstName around) .closeObject = some (place (.object []) around) :=
        rfl
      rw [tokens, tokensOfFields, List.intercalate_nil, List.cons_append, treeFrom?_cons hopen]
      exact treeFrom?_cons hclose rest
  | .object (field :: fields), _, around, rest, h => by
      have hopen := h .openObject nofun
      have hname : ∀ name,
          advance? (.firstName around) (.string name) = some (.afterName [] name around) :=
        fun _ => rfl
      have hfields :=
        treeFrom?_tokensOfFields (field :: fields) (List.cons_ne_nil _ _) [] rest hname
      rw [tokens, List.cons_append, treeFrom?_cons hopen, List.append_assoc]
      exact hfields

theorem treeFrom?_tokensOfItems : ∀ (items : List Json), items ≠ [] → ∀ (seen : List Tree)
    {stage : Stage} {around : List Frame} (rest : List Token),
    Awaits stage (.array seen :: around) →
      treeFrom? stage ([.comma].intercalate (tokensOfItems items) ++ .closeArray :: rest) =
        treeFrom? (place (.array (seen.reverse ++ Tree.ofItems items)) around) rest
  | [], hne, _, _, _, _, _ => absurd rfl hne
  | [item], _, seen, _, around, rest, h => by
      have hitem := treeFrom?_tokens item (.closeArray :: rest) h
      have hclose : advance? (.afterItem (Tree.ofJson item :: seen) around) .closeArray =
          some (place (.array (Tree.ofJson item :: seen).reverse) around) := rfl
      rw [tokensOfItems, tokensOfItems, List.intercalate_singleton, hitem, place,
        treeFrom?_cons hclose, List.reverse_cons]
      rfl
  | item :: next :: items, _, seen, _, around, rest, h => by
      have hitem := treeFrom?_tokens item (.comma ::
        ([.comma].intercalate (tokensOfItems (next :: items)) ++ .closeArray :: rest)) h
      have hcomma : advance? (.afterItem (Tree.ofJson item :: seen) around) .comma =
          some (.value (.array (Tree.ofJson item :: seen) :: around)) := rfl
      have hrest := treeFrom?_tokensOfItems (next :: items) (List.cons_ne_nil _ _)
        (Tree.ofJson item :: seen) rest
        (awaits_value (.array (Tree.ofJson item :: seen) :: around))
      have htokens : [Token.comma].intercalate (tokensOfItems (item :: next :: items)) ++
          .closeArray :: rest = item.tokens ++ .comma ::
            ([Token.comma].intercalate (tokensOfItems (next :: items)) ++ .closeArray :: rest) := by
        simp [tokensOfItems, List.intercalate_cons_cons]
      rw [htokens, hitem, place, treeFrom?_cons hcomma, hrest, List.reverse_cons, List.append_assoc]
      rfl

theorem treeFrom?_tokensOfFields : ∀ (fields : List (String × Json)), fields ≠ [] →
    ∀ (seen : List (Option String × Tree)) {stage : Stage} {around : List Frame}
      (rest : List Token),
    (∀ name, advance? stage (.string name) = some (.afterName seen name around)) →
      treeFrom? stage ([.comma].intercalate (tokensOfFields fields) ++ .closeObject :: rest) =
        treeFrom? (place (.object (seen.reverse ++ Tree.ofFields fields)) around) rest
  | [], hne, _, _, _, _, _ => absurd rfl hne
  | [(name, value)], _, seen, _, around, rest, h => by
      have hcolon : advance? (.afterName seen (some name) around) .colon =
          some (.value (.object seen (some name) :: around)) := rfl
      have hvalue := treeFrom?_tokens value (.closeObject :: rest)
        (awaits_value (.object seen (some name) :: around))
      have hclose : advance? (.afterField ((some name, Tree.ofJson value) :: seen) around)
          .closeObject =
            some (place (.object ((some name, Tree.ofJson value) :: seen).reverse) around) := rfl
      rw [tokensOfFields, tokensOfFields, List.intercalate_singleton, List.cons_append,
        treeFrom?_cons (h _), List.cons_append, treeFrom?_cons hcolon, hvalue, place,
        treeFrom?_cons hclose, List.reverse_cons]
      rfl
  | (name, value) :: next :: fields, _, seen, _, around, rest, h => by
      have hcolon : advance? (.afterName seen (some name) around) .colon =
          some (.value (.object seen (some name) :: around)) := rfl
      have hvalue := treeFrom?_tokens value (.comma ::
        ([.comma].intercalate (tokensOfFields (next :: fields)) ++ .closeObject :: rest))
        (awaits_value (.object seen (some name) :: around))
      have hcomma : advance? (.afterField ((some name, Tree.ofJson value) :: seen) around) .comma =
          some (.nextName ((some name, Tree.ofJson value) :: seen) around) := rfl
      have hrest := treeFrom?_tokensOfFields (next :: fields) (List.cons_ne_nil _ _)
        ((some name, Tree.ofJson value) :: seen) rest fun name =>
          (rfl : advance? (.nextName _ around) (.string name) = some (.afterName _ name around))
      have htokens : [Token.comma].intercalate (tokensOfFields ((name, value) :: next :: fields)) ++
          .closeObject :: rest = .string (some name) :: .colon :: (value.tokens ++ .comma ::
            ([Token.comma].intercalate (tokensOfFields (next :: fields)) ++
              .closeObject :: rest)) := by
        simp [tokensOfFields, List.intercalate_cons_cons]
      rw [htokens, treeFrom?_cons (h _), treeFrom?_cons hcolon, hvalue, place,
        treeFrom?_cons hcomma, hrest, List.reverse_cons, List.append_assoc]
      rfl

end

end Json

/-- The text of a value is read to the tree of the value in which every number is
what it is read as. -/
theorem Tree.ofText?_compact_of_readable {json : Json} (h : json.Readable) :
    Tree.ofText? json.compact = some (Tree.ofJson json.reread) := by
  have hscan := scans_compact json h [] [] trivial
  have hread := treeFrom?_tokens json.reread [] (awaits_value [])
  have htokens : tokens? json.compact = some json.reread.tokens := by
    rw [tokens?, ← List.append_nil json.compact.toList, hscan]
    simp [tokensFrom?, finish?]
  rw [List.append_nil] at hread
  rw [Tree.ofText?, htokens, Option.bind_some, hread]
  rfl

/-- The text of a legible value is read to its tree. -/
theorem Tree.ofText?_compact {json : Json} (h : json.Legible) :
    Tree.ofText? json.compact = some (Tree.ofJson json) := by
  rw [ofText?_compact_of_readable h.readable, h.reread_eq]

end DocumentQuery
