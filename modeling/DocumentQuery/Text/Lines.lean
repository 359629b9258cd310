/-!
# Lines of a text

A nested query is set off by indentation: each of its lines moves to the right
by a number of spaces. A text of one line stays as it is, because parentheses
around it are enough to see where it ends.
-/

namespace DocumentQuery.Text

/-- The lines of a text. A line feed ends a line, and a carriage return just
before it belongs to the end of the line. What follows the last line feed is a
line only if it is not empty, and it keeps a carriage return at its end. -/
def lines : List Char → List (List Char)
  | [] => []
  | '\n' :: rest => [] :: lines rest
  | '\r' :: '\n' :: rest => [] :: lines rest
  | c :: rest =>
    match lines rest with
    | [] => [[c]]
    | line :: more => (c :: line) :: more

def spaces (width : Nat) : String :=
  String.ofList (List.replicate width ' ')

/-- Puts `width` spaces before every line, empty lines included, and separates
the lines by single line feeds. -/
def indent (width : Nat) (text : String) : String :=
  "\n".intercalate ((lines text.toList).map fun line => spaces width ++ String.ofList line)

/-- Encloses a query text in parentheses. A text of one line stays inline; a
longer one starts on a new line and is indented, and the closing parenthesis
follows its last line directly. -/
def nest (width : Nat) (text : String) : String :=
  if text.toList.contains '\n' then "(\n" ++ indent width text ++ ")" else "(" ++ text ++ ")"

def commaSeparated (texts : List String) : String :=
  ", ".intercalate texts

@[simp] theorem lines_nil : lines [] = [] := rfl

theorem nest_of_not_mem {width : Nat} {text : String} (single : '\n' ∉ text.toList) :
    nest width text = "(" ++ text ++ ")" := by
  simp [nest, single]

end DocumentQuery.Text
