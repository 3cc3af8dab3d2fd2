/-!
# Line art

The characters that the frame of a code window and the marks in it are drawn with.
-/

set_option autoImplicit false

namespace StarlarkSyntax.Report

/-- What lines and marks are drawn with. -/
structure LineArt where
  vertical : Char
  horizontal : Char
  /-- Where the vertical line meets the horizontal one. -/
  tee : Char
  /-- What points up at the code. -/
  up : Char
  /-- What stands where the number of a line would, when the line goes on. -/
  more : List Char
deriving DecidableEq, Inhabited

/-- Box drawing characters. -/
def LineArt.boxes : LineArt :=
  ⟨'│', '─', '┬', '↑', ['…']⟩

/-- Characters that every terminal has. -/
def LineArt.ascii : LineArt :=
  ⟨'|', '-', '+', '^', ['.', '.', '.']⟩

end StarlarkSyntax.Report
