import DocumentQuery.Proofs.QueryTokens
/-!
# What a query text shows

A text shows parameter names if it has tokens, none of which begins a comment,
its brackets are balanced, and its parameters are those of the names
(`Shows`). The last part is asked for only if the text is to be `faithful`,
because the text of a block is closed in itself even where it leaves columns
out.

There is one lemma for each way in which texts are put together: words between
them, brackets around them, a minus sign before them, and lists of texts
separated by a word.
-/

namespace DocumentQuery.Text

variable {faithful : Prop}

/-- Tokens without a comment whose brackets are balanced and, if the names count,
whose parameters are the given ones. -/
structure Lists (faithful : Prop) (tokens : List Token) (names : List String) : Prop where
  balanced : Balanced tokens
  closed : .comment ∉ tokens
  parameters : faithful → ∀ name, .parameter name ∈ tokens ↔ name ∈ names

namespace Lists

variable {tokens others : List Token} {names more : List String}

theorem nil : Lists faithful [] [] :=
  ⟨.nil, by simp, by simp⟩

theorem literal : Lists faithful [.literal] [] :=
  ⟨.other rfl .nil, by simp, by simp⟩

theorem parameter (name : String) : Lists faithful [.parameter name] [name] :=
  ⟨.other rfl .nil, by simp, by simp⟩

theorem append (h : Lists faithful tokens names) (hothers : Lists faithful others more) :
    Lists faithful (tokens ++ others) (names ++ more) where
  balanced := h.balanced.append hothers.balanced
  closed := by
    rw [List.mem_append, not_or]
    exact ⟨h.closed, hothers.closed⟩
  parameters := fun hfaithful name => by
    rw [List.mem_append, List.mem_append, h.parameters hfaithful, hothers.parameters hfaithful]

theorem enclose (h : Lists faithful tokens names) (bracket : Bracket) :
    Lists faithful (.opening bracket :: tokens ++ [.closing bracket]) names where
  balanced := h.balanced.enclose bracket
  closed := by simpa using h.closed
  parameters := fun hfaithful name => by simpa using h.parameters hfaithful name

end Lists

/-- The text can be read, is closed in itself and shows the names, if they count. -/
def Shows (faithful : Prop) (text : String) (names : List String) : Prop :=
  ∃ tokens, Reads text tokens ∧ Lists faithful tokens names

/-- A word that makes no tokens and separates what stands before it from what
follows. -/
structure Separates (word : String) : Prop where
  quiet : Quiet word
  delimits : ∃ c rest, word.toList = c :: rest ∧ continuesIdentifier c = false

theorem Separates.delimits_append {word : String} (h : Separates word) (other : String) :
    Delimits (word ++ other) := by
  obtain ⟨c, rest, hfirst, hc⟩ := h.delimits
  intro d hd
  obtain rfl : c = d := by simpa [hfirst] using hd
  exact hc

namespace Shows

variable {text other word : String} {names more : List String}

theorem congr (h : Shows faithful text names)
    (hnames : faithful → ∀ name, name ∈ names ↔ name ∈ more) : Shows faithful text more := by
  obtain ⟨tokens, hreads, hlists⟩ := h
  refine ⟨tokens, hreads, hlists.balanced, hlists.closed, fun hfaithful name => ?_⟩
  rw [hlists.parameters hfaithful, hnames hfaithful]

theorem of_quiet (h : Quiet word) : Shows faithful word [] :=
  ⟨[], .of_quiet h, .nil⟩

theorem after (hword : Quiet word) (h : Shows faithful text names) :
    Shows faithful (word ++ text) names := by
  obtain ⟨tokens, hreads, hlists⟩ := h
  exact ⟨tokens, hreads.after_quiet hword, hlists⟩

theorem append (h : Shows faithful text names) (hother : Shows faithful other more)
    (hdelimits : Delimits other) : Shows faithful (text ++ other) (names ++ more) := by
  obtain ⟨tokens, hreads, hlists⟩ := h
  obtain ⟨others, hreadsOther, hlistsOther⟩ := hother
  exact ⟨tokens ++ others, hreads.append hreadsOther hdelimits, hlists.append hlistsOther⟩

theorem between (h : Shows faithful text names) (hword : Separates word)
    (hother : Shows faithful other more) :
    Shows faithful (text ++ word ++ other) (names ++ more) := by
  rw [String.append_assoc]
  exact h.append (hother.after hword.quiet) (hword.delimits_append other)

theorem before (h : Shows faithful text names) (hword : Separates word) :
    Shows faithful (text ++ word) names := by
  have hempty : Shows faithful "" [] := of_quiet rfl
  have happend := h.between hword hempty
  rwa [String.append_empty, List.append_nil] at happend

theorem enclose (h : Shows faithful text names) (bracket : Bracket) :
    Shows faithful (bracket.opening ++ text ++ bracket.closing) names := by
  obtain ⟨tokens, hreads, hlists⟩ := h
  exact ⟨_, hreads.enclose bracket, hlists.enclose bracket⟩

theorem nest (h : Shows faithful text names) (width : Nat) :
    Shows faithful (nest width text) names := by
  obtain ⟨tokens, hreads, hlists⟩ := h
  exact ⟨_, hreads.nest width, hlists.enclose .round⟩

theorem negate {c : Char} {rest : List Char} (h : Shows faithful text names)
    (htext : text.toList = c :: rest) (hc : c ≠ '-') : Shows faithful ("-" ++ text) names := by
  obtain ⟨tokens, hreads, hlists⟩ := h
  exact ⟨tokens, hreads.afterMinus htext hc, hlists⟩

theorem parameter {name : String} (h : isIdentifier name = true) :
    Shows faithful ("@" ++ name) [name] :=
  ⟨[.parameter name], .parameter h, .parameter name⟩

end Shows

/-! ## Lists of texts -/

/-- Each text shows some of the names, one after the other. -/
inductive ShowsAll (faithful : Prop) : List String → List String → Prop where
  | nil : ShowsAll faithful [] []
  | cons {text : String} {texts names more : List String} (first : Shows faithful text names)
      (rest : ShowsAll faithful texts more) : ShowsAll faithful (text :: texts) (names ++ more)

namespace ShowsAll

variable {texts others names more : List String}

theorem single {text : String} (h : Shows faithful text names) :
    ShowsAll faithful [text] names := by
  have hcons := cons h nil
  rwa [List.append_nil] at hcons

theorem append (h : ShowsAll faithful texts names) (hothers : ShowsAll faithful others more) :
    ShowsAll faithful (texts ++ others) (names ++ more) := by
  induction h with
  | nil => exact hothers
  | cons hfirst _ ih =>
      rw [List.append_assoc]
      exact .cons hfirst ih

theorem of_forall {α : Type} {items : List α} {text : α → String} {names : α → List String}
    (h : ∀ item ∈ items, Shows faithful (text item) (names item)) :
    ShowsAll faithful (items.map text) (items.flatMap names) := by
  induction items with
  | nil => exact .nil
  | cons item rest ih =>
      rw [List.forall_mem_cons] at h
      exact .cons h.1 (ih h.2)

theorem map_after {word : String} (hword : Quiet word) (h : ShowsAll faithful texts names) :
    ShowsAll faithful (texts.map (word ++ ·)) names := by
  induction h with
  | nil => exact .nil
  | cons hfirst _ ih => exact .cons (hfirst.after hword) ih

theorem intercalate {word : String} (hword : Separates word) (h : ShowsAll faithful texts names) :
    Shows faithful (word.intercalate texts) names := by
  induction h with
  | nil => exact .of_quiet rfl
  | @cons text texts names more hfirst hrest ih =>
      cases hrest with
      | nil =>
          rwa [List.append_nil, String.intercalate_singleton]
      | @cons next rest _ _ hnext hmore =>
          have hboth := hfirst.between hword ih
          rwa [String.intercalate_cons_cons]

end ShowsAll

theorem separates_comma : Separates ", " :=
  ⟨rfl, _, _, rfl, rfl⟩

theorem ShowsAll.commaSeparated {texts names : List String} (h : ShowsAll faithful texts names) :
    Shows faithful (commaSeparated texts) names :=
  h.intercalate separates_comma

end DocumentQuery.Text
