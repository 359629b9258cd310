/-!
# Identifiers

An identifier is an ASCII letter or underscore, followed by ASCII letters,
digits and underscores. Aliases that are printed without quotes have to be of
this form.
-/

namespace DocumentQuery.Text

def startsIdentifier (c : Char) : Bool :=
  c.isAlpha || c == '_'

/-- Whether a character may stand in an identifier after its first place. -/
def continuesIdentifier (c : Char) : Bool :=
  c.isAlphanum || c == '_'

def isIdentifierChars : List Char → Bool
  | [] => false
  | c :: rest => startsIdentifier c && rest.all continuesIdentifier

def isIdentifier (text : String) : Bool :=
  isIdentifierChars text.toList

end DocumentQuery.Text
