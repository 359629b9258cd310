import DocumentQuery.Text.Identifier
import DocumentQuery.Text.Lines
/-!
# Tokens of query texts

What decides where the parts of a query text begin and end: brackets, literals
between double quotes, parameters, and the two minus signs that begin a comment.
`tokens?` reads a text from left to right and finds them. In a literal a
backslash takes away the meaning of the character after it, and a literal ends
in the line in which it begins; otherwise the text has no tokens.

A text that is put together from parts has the tokens of the parts one after the
other, provided that nothing follows a parameter that would continue its name
(`Reads.append`). Indentation does not change the tokens (`Reads.nest`): line
feeds and spaces make none, and no line begins inside a literal.
-/

namespace DocumentQuery.Text

inductive Bracket where
  | round
  | square
  | curly
deriving DecidableEq

def Bracket.opening : Bracket → String
  | .round => "("
  | .square => "["
  | .curly => "\x7b"

def Bracket.closing : Bracket → String
  | .round => ")"
  | .square => "]"
  | .curly => "\x7d"

inductive Token where
  | opening (bracket : Bracket)
  | closing (bracket : Bracket)
  /-- A literal with both its quotes. -/
  | literal
  | parameter (name : String)
  /-- The two minus signs that begin a comment. -/
  | comment
deriving DecidableEq

/-- Where reading stands between two characters. -/
inductive Reading where
  | outside
  | minus
  /-- In a parameter, after some characters of its name. -/
  | parameter (name : List Char)
  | literal
  /-- In a literal, after a backslash. -/
  | escaped
deriving DecidableEq

def bracketToken? (c : Char) : Option Token :=
  if c = '(' then some (.opening .round)
  else if c = ')' then some (.closing .round)
  else if c = '[' then some (.opening .square)
  else if c = ']' then some (.closing .square)
  else if c = '\x7b' then some (.opening .curly)
  else if c = '\x7d' then some (.closing .curly)
  else none

/-- Reads a character that stands outside of everything else. -/
def begin (c : Char) : List Token × Reading :=
  if c = '"' then ([], .literal)
  else if c = '@' then ([], .parameter [])
  else if c = '-' then ([], .minus)
  else ((bracketToken? c).toList, .outside)

/-- Reads one character: the tokens that it completes, and how reading goes on. -/
def step? : Reading → Char → Option (List Token × Reading)
  | .outside, c => some (begin c)
  | .minus, c => if c = '-' then some ([.comment], .outside) else some (begin c)
  | .parameter name, c =>
    if continuesIdentifier c then some ([], .parameter (name ++ [c]))
    else some (.parameter (String.ofList name) :: (begin c).1, (begin c).2)
  | .literal, c =>
    if c = '"' then some ([.literal], .outside)
    else if c = '\\' then some ([], .escaped)
    else if c = '\n' then none
    else some ([], .literal)
  | .escaped, c => if c = '\n' then none else some ([], .literal)

/-- Reads characters: the tokens that they complete, and where reading stands
then. -/
def read? : Reading → List Char → Option (List Token × Reading)
  | reading, [] => some ([], reading)
  | reading, c :: rest =>
    match step? reading c with
    | none => none
    | some (tokens, next) => (read? next rest).map fun more => (tokens ++ more.1, more.2)

/-- The tokens that the end of the text completes. -/
def ending? : Reading → Option (List Token)
  | .outside => some []
  | .minus => some []
  | .parameter name => some [.parameter (String.ofList name)]
  | .literal => none
  | .escaped => none

/-- The tokens of a text; `none` if some literal is not closed in its line. -/
def tokens? (text : String) : Option (List Token) :=
  (read? .outside text.toList).bind fun found => (ending? found.2).map (found.1 ++ ·)

def Token.isBracket : Token → Bool
  | .opening _ => true
  | .closing _ => true
  | _ => false

/-- Every bracket is closed by its partner, in nesting order. -/
inductive Balanced : List Token → Prop where
  | nil : Balanced []
  | other {token : Token} {rest : List Token} (single : token.isBracket = false)
      (balanced : Balanced rest) : Balanced (token :: rest)
  | enclosing (bracket : Bracket) {inside rest : List Token} (inner : Balanced inside)
      (balanced : Balanced rest) :
      Balanced (.opening bracket :: inside ++ .closing bracket :: rest)

namespace Balanced

variable {a b : List Token}

theorem append (ha : Balanced a) (hb : Balanced b) : Balanced (a ++ b) := by
  induction ha with
  | nil => exact hb
  | other hsingle _ ih => exact .other hsingle ih
  | enclosing bracket hinside _ _ ih =>
      rw [List.append_assoc, List.cons_append]
      exact .enclosing bracket hinside ih

theorem enclose (h : Balanced a) (bracket : Bracket) :
    Balanced (.opening bracket :: a ++ [.closing bracket]) :=
  .enclosing bracket h .nil

end Balanced

/-! ## Reading one part after the other -/

variable {reading : Reading} {c : Char}

theorem read?_cons {tokens : List Token} {next : Reading}
    (h : step? reading c = some (tokens, next)) (rest : List Char) :
    read? reading (c :: rest) = (read? next rest).map fun more => (tokens ++ more.1, more.2) := by
  rw [read?, h]

theorem read?_append (reading : Reading) (text others : List Char) :
    read? reading (text ++ others) =
      (read? reading text).bind fun found =>
        (read? found.2 others).map fun more => (found.1 ++ more.1, more.2) := by
  induction text generalizing reading with
  | nil => simp [read?]
  | cons c rest ih =>
      rw [List.cons_append, read?, read?]
      cases hstep : step? reading c with
      | none => rfl
      | some found =>
          simp only [ih, Option.map_bind, Option.bind_map, Function.comp_def, Option.map_map,
            List.append_assoc]

theorem read?_parameter (hc : continuesIdentifier c = false) (name rest : List Char) :
    read? (.parameter name) (c :: rest) =
      (read? .outside (c :: rest)).map fun more =>
        (.parameter (String.ofList name) :: more.1, more.2) := by
  simp [read?, step?, hc, Function.comp_def]

theorem read?_continues {more : List Char} (h : ∀ c ∈ more, continuesIdentifier c = true)
    (name : List Char) : read? (.parameter name) more = some ([], .parameter (name ++ more)) := by
  induction more generalizing name with
  | nil => rw [read?, List.append_nil]
  | cons c more ih =>
      rw [List.forall_mem_cons] at h
      have hstep : step? (.parameter name) c = some ([], .parameter (name ++ [c])) := by
        simp [step?, h.1]
      rw [read?_cons hstep, ih h.2]
      simp

theorem read?_minus (hc : c ≠ '-') (rest : List Char) :
    read? .minus (c :: rest) = read? .outside (c :: rest) := by
  simp [read?, step?, hc]

/-! ## Texts that make no tokens -/

/-- Outside of everything else the character makes no token and begins nothing. -/
def Inert (c : Char) : Prop :=
  begin c = ([], .outside)

theorem Inert.ne_minus (h : Inert c) : c ≠ '-' := by
  rintro rfl
  cases h

/-- Outside of everything else the text makes no tokens. -/
def Quiet (text : String) : Prop :=
  read? .outside text.toList = some ([], .outside)

/-- A text that cannot continue a name. -/
def Delimits (text : String) : Prop :=
  ∀ c ∈ text.toList.head?, continuesIdentifier c = false

theorem read?_skip (h : Inert c) (rest : List Char) :
    read? .outside (c :: rest) = read? .outside rest := by
  have hstep : step? .outside c = some ([], .outside) := congrArg some h
  rw [read?_cons hstep]
  simp

theorem read?_quiet {text : List Char} (h : ∀ c ∈ text, Inert c) (rest : List Char) :
    read? .outside (text ++ rest) = read? .outside rest := by
  induction text with
  | nil => rfl
  | cons c text ih =>
      rw [List.forall_mem_cons] at h
      rw [List.cons_append, read?_skip h.1, ih h.2]

theorem read?_of_forall {text : List Char} (h : ∀ c ∈ text, Inert c) :
    read? .outside text = some ([], .outside) := by
  have hread := read?_quiet h []
  rwa [List.append_nil] at hread

theorem quiet_of_forall {text : String} (h : ∀ c ∈ text.toList, Inert c) : Quiet text :=
  read?_of_forall h

theorem inert_of_continuesIdentifier (h : continuesIdentifier c = true) : Inert c := by
  have hne : ∀ other : Char, continuesIdentifier other = false → c ≠ other := by
    rintro other hother rfl
    rw [h] at hother
    exact Bool.noConfusion hother
  simp [Inert, begin, bracketToken?, hne '"' rfl, hne '@' rfl, hne '-' rfl, hne '(' rfl, hne ')' rfl,
    hne '[' rfl, hne ']' rfl, hne '\x7b' rfl, hne '\x7d' rfl]

theorem exists_of_isIdentifier {name : String} (h : isIdentifier name = true) :
    ∃ c rest, name.toList = c :: rest ∧ continuesIdentifier c = true ∧
      ∀ other ∈ rest, continuesIdentifier other = true := by
  rw [isIdentifier] at h
  cases hname : name.toList with
  | nil => rw [hname] at h; simp [isIdentifierChars] at h
  | cons c rest =>
      rw [hname, isIdentifierChars, Bool.and_eq_true, List.all_eq_true] at h
      have hfirst : continuesIdentifier c = true := by
        have hstart := h.1
        simp only [startsIdentifier, continuesIdentifier, Char.isAlphanum, Bool.or_eq_true] at *
        exact hstart.imp_left Or.inl
      exact ⟨c, rest, rfl, hfirst, h.2⟩

theorem continuesIdentifier_of_mem {name : String} (h : isIdentifier name = true) :
    ∀ c ∈ name.toList, continuesIdentifier c = true := by
  obtain ⟨c, rest, hname, hfirst, hrest⟩ := exists_of_isIdentifier h
  rw [hname]
  exact List.forall_mem_cons.mpr ⟨hfirst, hrest⟩

theorem quiet_of_isIdentifier {name : String} (h : isIdentifier name = true) : Quiet name :=
  quiet_of_forall fun c hc => inert_of_continuesIdentifier (continuesIdentifier_of_mem h c hc)

/-! ## The tokens of a part -/

/-- Reading stands at a place where a part of a text may end: not after a minus
sign, and in no literal. The tokens are those that the end completes. -/
inductive Ended : Reading → List Token → Prop where
  | outside : Ended .outside []
  | parameter (name : List Char) : Ended (.parameter name) [.parameter (String.ofList name)]

theorem Ended.ending? {reading : Reading} {tokens : List Token} (h : Ended reading tokens) :
    ending? reading = some tokens := by
  cases h <;> rfl

/-- A text, or a part of one, with the tokens that it has if what follows
delimits it. -/
def Reads (text : String) (tokens : List Token) : Prop :=
  ∃ found last ended, read? .outside text.toList = some (found, last) ∧ Ended last ended ∧
    tokens = found ++ ended

namespace Reads

variable {text other : String} {tokens others : List Token}

theorem tokens? (h : Reads text tokens) : tokens? text = some tokens := by
  obtain ⟨found, last, ended, hread, hended, rfl⟩ := h
  rw [Text.tokens?, hread, Option.bind_some, hended.ending?, Option.map_some]

theorem of_quiet (h : Quiet text) : Reads text [] :=
  ⟨[], .outside, [], h, .outside, rfl⟩

theorem parameter {name : String} (h : isIdentifier name = true) :
    Reads ("@" ++ name) [.parameter name] := by
  have hat : step? .outside '@' = some ([], .parameter []) := rfl
  have hended := Ended.parameter name.toList
  rw [String.ofList_toList] at hended
  refine ⟨[], .parameter name.toList, [.parameter name], ?_, hended, rfl⟩
  have hname := read?_continues (continuesIdentifier_of_mem h) []
  have htext : ("@" ++ name).toList = '@' :: name.toList := by simp
  rw [htext, read?_cons hat, hname]
  rfl

/-- What stands before a part and is complete for itself. -/
theorem after {found : List Token} (hbefore : read? .outside other.toList = some (found, .outside))
    (h : Reads text tokens) : Reads (other ++ text) (found ++ tokens) := by
  obtain ⟨more, last, ended, hread, hended, rfl⟩ := h
  refine ⟨found ++ more, last, ended, ?_, hended, by rw [List.append_assoc]⟩
  rw [String.toList_append, read?_append, hbefore, Option.bind_some, hread]
  rfl

theorem after_quiet (hquiet : Quiet other) (h : Reads text tokens) : Reads (other ++ text) tokens :=
  h.after hquiet

/-- The tokens of two parts, if the second one delimits the first. -/
theorem append (h : Reads text tokens) (hother : Reads other others) (hdelimits : Delimits other) :
    Reads (text ++ other) (tokens ++ others) := by
  obtain ⟨found, last, ended, hread, hended, rfl⟩ := h
  cases hended with
  | outside =>
      rw [List.append_nil]
      exact hother.after hread
  | parameter name =>
      obtain ⟨more, last, ended, hmore, hended, rfl⟩ := hother
      cases hlist : other.toList with
      | nil =>
          obtain ⟨rfl, rfl⟩ : more = [] ∧ last = .outside := by
            rw [hlist, read?] at hmore
            obtain ⟨rfl, rfl⟩ := Prod.mk.inj (Option.some.inj hmore)
            exact ⟨rfl, rfl⟩
          cases hended
          refine ⟨found, .parameter name, _, ?_, .parameter name, by simp⟩
          rw [String.toList_append, hlist, List.append_nil, hread]
      | cons c rest =>
          have hc : continuesIdentifier c = false := hdelimits c (by rw [hlist]; rfl)
          refine ⟨found ++ .parameter (String.ofList name) :: more, last, ended, ?_, hended, ?_⟩
          · rw [String.toList_append, read?_append, hread, Option.bind_some, hlist,
              read?_parameter hc, ← hlist, hmore]
            rfl
          · simp

/-- A minus sign before a text that does not begin with another one. -/
theorem afterMinus {c : Char} {rest : List Char} (htext : text.toList = c :: rest) (hc : c ≠ '-')
    (h : Reads text tokens) : Reads ("-" ++ text) tokens := by
  obtain ⟨found, last, ended, hread, hended, rfl⟩ := h
  refine ⟨found, last, ended, ?_, hended, rfl⟩
  have hminus : read? .outside "-".toList = some ([], .minus) := rfl
  rw [String.toList_append, read?_append, hminus, Option.bind_some, htext, read?_minus hc, ← htext,
    hread]
  rfl

theorem enclose (h : Reads text tokens) (bracket : Bracket) :
    Reads (bracket.opening ++ text ++ bracket.closing)
      (.opening bracket :: tokens ++ [.closing bracket]) := by
  have hopening : read? .outside bracket.opening.toList = some ([.opening bracket], .outside) := by
    cases bracket <;> rfl
  have hclosing : Reads bracket.closing [.closing bracket] :=
    ⟨[.closing bracket], .outside, [], by cases bracket <;> rfl, .outside, rfl⟩
  have hdelimits : Delimits bracket.closing := by
    cases bracket <;> simp [Delimits, Bracket.closing] <;> rfl
  exact (h.after hopening).append hclosing hdelimits

end Reads

/-! ## Indentation -/

/-- A text with spaces put after every line feed but the last, which is left out
if nothing follows it. -/
def reflow (pad : List Char) : List Char → List Char
  | [] => []
  | '\n' :: rest => if rest = [] then [] else '\n' :: (pad ++ reflow pad rest)
  | '\r' :: '\n' :: rest => if rest = [] then [] else '\n' :: (pad ++ reflow pad rest)
  | c :: rest => c :: reflow pad rest

theorem lines_eq_nil_iff (text : List Char) : lines text = [] ↔ text = [] := by
  fun_cases lines text with
  | case1 => simp
  | case2 rest => simp
  | case3 rest => simp
  | case4 c rest hlines => simp
  | case5 c rest line more hlines => simp

theorem intercalate_cons_append {α : Type} (separator a b : List α) (rest : List (List α)) :
    separator.intercalate ((a ++ b) :: rest) = a ++ separator.intercalate (b :: rest) := by
  cases rest with
  | nil => simp
  | cons next more => simp [List.intercalate_cons_cons]

/-- The lines of a text, each with spaces before it, are the text with spaces put
after its line feeds. -/
theorem intercalate_lines (pad : List Char) {text : List Char} (h : text ≠ []) :
    ['\n'].intercalate ((lines text).map (pad ++ ·)) = pad ++ reflow pad text := by
  -- a line that ends goes before the lines of the rest, if there are any
  have hline : ∀ rest : List Char,
      (rest ≠ [] → ['\n'].intercalate ((lines rest).map (pad ++ ·)) = pad ++ reflow pad rest) →
      ['\n'].intercalate (([] :: lines rest).map (pad ++ ·)) =
        pad ++ if rest = [] then [] else '\n' :: (pad ++ reflow pad rest) := by
    intro rest ih
    by_cases hrest : rest = []
    · simp [hrest]
    · have hlines := ih hrest
      obtain ⟨line, more, hcons⟩ : ∃ line more, lines rest = line :: more :=
        List.exists_cons_of_ne_nil (mt (lines_eq_nil_iff rest).mp hrest)
      rw [if_neg hrest, ← hlines, hcons]
      simp [List.intercalate_cons_cons]
  fun_induction lines text with
  | case1 => exact absurd rfl h
  | case2 rest ih => exact hline rest ih
  | case3 rest ih => exact hline rest ih
  | case4 c rest hfeed hreturn hlines ih =>
      obtain rfl := (lines_eq_nil_iff rest).mp hlines
      simp [reflow]
  | case5 c rest hfeed hreturn line more hlines ih =>
      have hrest : rest ≠ [] := by
        rintro rfl
        simp at hlines
      have htail := ih hrest
      rw [hlines, List.map_cons, intercalate_cons_append] at htail
      have hfirst : reflow pad (c :: rest) = c :: reflow pad rest := by
        rw [reflow]
        · exact hfeed
        · exact hreturn
      have hmore := intercalate_cons_append ['\n'] [c] line (more.map (pad ++ ·))
      rw [List.map_cons, intercalate_cons_append, hfirst, ← List.append_cancel_left htail]
      exact congrArg (pad ++ ·) hmore

/-- A line feed ends whatever may end at it, as a bracket does. A carriage return
before it makes no difference. -/
theorem step?_lineFeed (reading : Reading) :
    (step? reading '\n' = none ∧ ∀ rest, read? reading ('\r' :: '\n' :: rest) = none) ∨
      ∃ tokens, step? reading '\n' = some (tokens, .outside) ∧
        step? reading '\r' = some (tokens, .outside) ∧
        step? reading ')' = some (tokens ++ [.closing .round], .outside) := by
  cases reading with
  | outside => exact .inr ⟨[], rfl, rfl, rfl⟩
  | minus => exact .inr ⟨[], rfl, rfl, rfl⟩
  | parameter name => exact .inr ⟨[.parameter (String.ofList name)], rfl, rfl, rfl⟩
  | literal => exact .inl ⟨rfl, fun _ => rfl⟩
  | escaped => exact .inl ⟨rfl, fun _ => rfl⟩

theorem read?_return (reading : Reading) (rest : List Char) :
    read? reading ('\r' :: '\n' :: rest) = read? reading ('\n' :: rest) := by
  have houtside : step? .outside '\n' = some ([], .outside) := rfl
  rcases step?_lineFeed reading with ⟨hfeed, hreturn⟩ | ⟨tokens, hfeed, hreturn, -⟩
  · rw [hreturn, read?, hfeed]
  · rw [read?_cons hreturn, read?_cons houtside, read?_cons hfeed]
    simp

/-- Spaces after a line feed make no difference, and neither does the line feed
itself before a bracket. -/
theorem read?_lineFeed {pad : List Char} (hpad : ∀ c ∈ pad, Inert c)
    (reading : Reading) (rest : List Char) :
    read? reading ('\n' :: (pad ++ rest)) = read? reading ('\n' :: rest) := by
  rw [read?, read?]
  rcases step?_lineFeed reading with ⟨hfeed, -⟩ | ⟨tokens, hfeed, -⟩
  · simp only [hfeed]
  · simp only [hfeed, read?_quiet hpad]

theorem read?_lineFeed_closing {reading : Reading}
    (h : read? reading ['\n', ')'] ≠ none) : read? reading [')'] = read? reading ['\n', ')'] := by
  rcases step?_lineFeed reading with ⟨hfeed, -⟩ | ⟨tokens, hfeed, -, hclosing⟩
  · rw [read?, hfeed] at h
    exact absurd rfl h
  · rw [read?_cons hclosing, read?_cons hfeed]
    simp [read?, step?, begin, bracketToken?]

/-- Whatever comes before a line feed, reading goes on outside after it. -/
theorem read?_lineFeed_congr {reading : Reading} {a b : List Char}
    (hsame : read? .outside b ≠ none → read? .outside a = read? .outside b)
    (h : read? reading ('\n' :: b) ≠ none) :
    read? reading ('\n' :: a) = read? reading ('\n' :: b) := by
  rcases step?_lineFeed reading with ⟨hfeed, -⟩ | ⟨tokens, hfeed, -⟩
  · rw [read?, read?, hfeed]
  · rw [read?_cons hfeed] at h
    rw [read?_cons hfeed, read?_cons hfeed, hsame (by simpa using h)]

/-- Before a bracket an indented text is read as it was, if it can be read at
all. -/
theorem read?_reflow {pad : List Char} (hpad : ∀ c ∈ pad, Inert c)
    {reading : Reading} {text : List Char} (h : read? reading (text ++ [')']) ≠ none) :
    read? reading (reflow pad text ++ [')']) = read? reading (text ++ [')']) := by
  fun_induction reflow pad text generalizing reading with
  | case1 => rfl
  | case2 => exact read?_lineFeed_closing h
  | case3 rest hrest ih =>
      simp only [List.cons_append, List.append_assoc] at h ⊢
      rw [read?_lineFeed hpad]
      exact read?_lineFeed_congr ih h
  | case4 =>
      simp only [List.cons_append, List.nil_append, read?_return] at h ⊢
      exact read?_lineFeed_closing h
  | case5 rest hrest ih =>
      simp only [List.cons_append, List.append_assoc, read?_return] at h ⊢
      rw [read?_lineFeed hpad]
      exact read?_lineFeed_congr ih h
  | case6 c rest hfeed hreturn ih =>
      simp only [List.cons_append] at h ⊢
      cases hstep : step? reading c with
      | none => rw [read?, read?, hstep]
      | some found =>
          rw [read?_cons hstep] at h
          rw [read?_cons hstep, read?_cons hstep, ih (by simpa using h)]

theorem toList_indent (width : Nat) {text : String} (h : text.toList ≠ []) :
    (indent width text).toList =
      List.replicate width ' ' ++ reflow (List.replicate width ' ') text.toList := by
  rw [indent, String.toList_intercalate, ← intercalate_lines _ h, List.map_map]
  have hline : String.toList ∘ (fun line => spaces width ++ String.ofList line) =
      (List.replicate width ' ' ++ ·) := by
    funext line
    simp [spaces]
  rw [hline]
  rfl

theorem read?_round (rest : List Char) :
    read? .outside ('(' :: rest) =
      (read? .outside rest).map fun more => (.opening .round :: more.1, more.2) := by
  have hstep : step? .outside '(' = some ([.opening .round], .outside) := rfl
  exact read?_cons hstep rest

/-- Setting off a text by indentation makes no difference to how it is read. -/
theorem read?_nest (width : Nat) {text : String}
    (h : read? .outside ("(" ++ text ++ ")").toList ≠ none) :
    read? .outside (nest width text).toList = read? .outside ("(" ++ text ++ ")").toList := by
  have hplain : ("(" ++ text ++ ")").toList = '(' :: (text.toList ++ [')']) := by simp
  rw [nest]
  split
  · rename_i hfeed
    have hne : text.toList ≠ [] := List.ne_nil_of_mem (List.contains_iff_mem.mp hfeed)
    have hlineFeed : Inert '\n' := rfl
    have hpad : ∀ c ∈ List.replicate width ' ', Inert c := by
      intro c hc
      rw [List.eq_of_mem_replicate hc]
      rfl
    have hindented : ("(\n" ++ indent width text ++ ")").toList =
        '(' :: '\n' :: (List.replicate width ' ' ++
          (reflow (List.replicate width ' ') text.toList ++ [')'])) := by
      simp [toList_indent width hne]
    rw [hplain, read?_round, Ne, Option.map_eq_none_iff] at h
    rw [hplain, hindented, read?_round, read?_round, read?_lineFeed hpad,
      read?_skip hlineFeed, read?_reflow hpad h]
  · rfl

/-- Enclosed in parentheses and indented, a text has the tokens that it had. -/
theorem Reads.nest {text : String} {tokens : List Token} (h : Reads text tokens) (width : Nat) :
    Reads (nest width text) (.opening .round :: tokens ++ [.closing .round]) := by
  obtain ⟨found, last, ended, hread, hended, heq⟩ := h.enclose .round
  have hsome : read? .outside ("(" ++ text ++ ")").toList ≠ none :=
    Option.ne_none_iff_exists'.mpr ⟨_, hread⟩
  exact ⟨found, last, ended, (read?_nest width hsome).trans hread, hended, heq⟩

end DocumentQuery.Text
