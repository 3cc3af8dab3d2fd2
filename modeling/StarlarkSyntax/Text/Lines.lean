/-!
# Lines of a text

A line ends at a line feed, and the carriage return before it belongs to the line's end. What comes
after the last line feed is a line too, unless it is empty.
-/

set_option autoImplicit false

namespace StarlarkSyntax.Text

/-- A line that ended at a line feed, without the carriage return at its end; the line is given last
character first. -/
def endedLine : List Char → List Char
  | '\r' :: line => line.reverse
  | line => line.reverse

/-- The lines of a text, when `line` is what the first of them has so far, last character first. -/
def linesFromWith (line : List Char) : List Char → List (List Char)
  | [] => if line.isEmpty then [] else [line.reverse]
  | c :: text =>
    if c = '\n' then endedLine line :: linesFromWith [] text
    else linesFromWith (c :: line) text

/-- The lines of a text, without their ends. -/
def lines (text : List Char) : List (List Char) :=
  linesFromWith [] text

@[simp] theorem lines_nil : lines [] = [] := rfl

end StarlarkSyntax.Text
