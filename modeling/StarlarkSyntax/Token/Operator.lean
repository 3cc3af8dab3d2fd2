/-!
# Operator symbols

The operators that are written with symbols; those written with words are reserved words. Some of
them can be joined with `=` to assign the result of the operation, as in `x += 1`.

`longestFirst` lists the operators so that an operator comes before every other one whose spelling
begins its own, which makes the first one that fits the longest one.
-/

set_option autoImplicit false

namespace StarlarkSyntax

/-- An operator that is written with symbols. -/
inductive Operator where
  | plus
  | minus
  | star
  | slash
  | slashSlash
  | percent
  | starStar
  | tilde
  | ampersand
  | pipe
  | caret
  | lessLess
  | greaterGreater
  | equalEqual
  | bangEqual
  | less
  | greater
  | lessEqual
  | greaterEqual
deriving DecidableEq, Inhabited

namespace Operator

/-- Every operator, the spellings of two characters before those of one. -/
def longestFirst : List Operator :=
  [starStar, slashSlash, lessLess, greaterGreater, equalEqual, bangEqual, lessEqual, greaterEqual,
   plus, minus, star, slash, percent, tilde, ampersand, pipe, caret, less, greater]

/-- The operator as it is written in a program. -/
def spelling : Operator → String
  | plus => "+"
  | minus => "-"
  | star => "*"
  | slash => "/"
  | slashSlash => "//"
  | percent => "%"
  | starStar => "**"
  | tilde => "~"
  | ampersand => "&"
  | pipe => "|"
  | caret => "^"
  | lessLess => "<<"
  | greaterGreater => ">>"
  | equalEqual => "=="
  | bangEqual => "!="
  | less => "<"
  | greater => ">"
  | lessEqual => "<="
  | greaterEqual => ">="

/-- The operator's name in a listing of tokens. -/
def label : Operator → String
  | plus => "Plus"
  | minus => "Minus"
  | star => "Star"
  | slash => "Slash"
  | slashSlash => "SlashSlash"
  | percent => "Percent"
  | starStar => "StarStar"
  | tilde => "Tilde"
  | ampersand => "Ampersand"
  | pipe => "Pipe"
  | caret => "Caret"
  | lessLess => "LessLess"
  | greaterGreater => "GreaterGreater"
  | equalEqual => "EqualEqual"
  | bangEqual => "BangEqual"
  | less => "Less"
  | greater => "Greater"
  | lessEqual => "LessEqual"
  | greaterEqual => "GreaterEqual"

/-- Can the operator be joined with `=` into an assignment? -/
def hasCompoundForm : Operator → Bool
  | plus | minus | star | slash | slashSlash | percent | ampersand | pipe | caret | lessLess
  | greaterGreater => true
  | starStar | tilde | equalEqual | bangEqual | less | greater | lessEqual | greaterEqual => false

/-- The spelling of the assignment that the operator is joined into. An operator that has none is
shown with a question mark. -/
def compoundSpelling (operator : Operator) : String :=
  if operator.hasCompoundForm then operator.spelling ++ "=" else "?="

theorem mem_longestFirst (operator : Operator) : operator ∈ longestFirst := by
  cases operator <;> decide

end Operator
end StarlarkSyntax
