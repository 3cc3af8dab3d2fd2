/-!
# Reserved words

The words that the language uses itself and that therefore cannot be names. `ofSpelling?_spelling`
says that a word is recognised by its spelling.
-/

set_option autoImplicit false

namespace StarlarkSyntax

/-- A word that cannot be a name. -/
inductive Reserved where
  | andWord
  | breakWord
  | continueWord
  | defWord
  | elifWord
  | elseWord
  | forWord
  | ifWord
  | inWord
  | isWord
  | lambdaWord
  | loadWord
  | notWord
  | orWord
  | passWord
  | returnWord
deriving DecidableEq, Inhabited

namespace Reserved

/-- Every reserved word, in alphabetical order. -/
def all : List Reserved :=
  [andWord, breakWord, continueWord, defWord, elifWord, elseWord, forWord, ifWord, inWord, isWord,
   lambdaWord, loadWord, notWord, orWord, passWord, returnWord]

/-- The word as it is written in a program. -/
def spelling : Reserved → String
  | andWord => "and"
  | breakWord => "break"
  | continueWord => "continue"
  | defWord => "def"
  | elifWord => "elif"
  | elseWord => "else"
  | forWord => "for"
  | ifWord => "if"
  | inWord => "in"
  | isWord => "is"
  | lambdaWord => "lambda"
  | loadWord => "load"
  | notWord => "not"
  | orWord => "or"
  | passWord => "pass"
  | returnWord => "return"

/-- The word's name in a listing of tokens. -/
def label : Reserved → String
  | andWord => "And"
  | breakWord => "Break"
  | continueWord => "Continue"
  | defWord => "Def"
  | elifWord => "Elif"
  | elseWord => "Else"
  | forWord => "For"
  | ifWord => "If"
  | inWord => "In"
  | isWord => "Is"
  | lambdaWord => "Lambda"
  | loadWord => "Load"
  | notWord => "Not"
  | orWord => "Or"
  | passWord => "Pass"
  | returnWord => "Return"

/-- The reserved word with a given spelling. -/
def ofSpelling? (word : String) : Option Reserved :=
  all.find? (·.spelling == word)

theorem mem_all (word : Reserved) : word ∈ all := by
  cases word <;> decide

theorem ofSpelling?_spelling (word : Reserved) : ofSpelling? word.spelling = some word := by
  cases word <;> decide

theorem spelling_of_ofSpelling? {text : String} {word : Reserved}
    (h : ofSpelling? text = some word) : word.spelling = text := by
  simpa using List.find?_some h

end Reserved
end StarlarkSyntax
