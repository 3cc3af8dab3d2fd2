import Mathlib
import StarlarkSyntax.Proofs.Append.Layout
import StarlarkSyntax.Proofs.Append.Statements
import StarlarkSyntax.Proofs.Twin.Root
/-!
# Parsing a text after whole lines

Errors stay in their statement. A text of whole lines is read up to its last line in the same way whatever
comes after it, and what comes after it is read as if it stood alone, unless it would continue a statement.
So the nodes of both texts together are the nodes of the first and then those of the second
(`childNodes_append`), however malformed the two are.
-/

set_option autoImplicit false

namespace StarlarkSyntax

open Layout (Line Piece pieces mark isCode linesFrom WholeLines BeginsAnew Complete)
open Grammar Twin Shape
open Stage (Inside Adds)

/-! ## Files -/

theorem Stage.Adds.settled {lexed : Lexed} {stage after : Stage lexed} {made : List Shape}
    (adds : Adds stage made after) : Adds stage made (after.placed stage.place) := by
  have same : after.place = stage.place := adds.later.place
  rw [← same]
  exact adds

/-- Some of the statements of a text have been read, and the others are read from a stage on. -/
def Underway (lexed : Lexed) (made : List Shape) (stage : Stage lexed) : Prop :=
  ∃ marker, ∃ first : Stage lexed,
    Grammar.mark (Stage.initial lexed).parser = some (marker, first.parser) ∧
      statements first.parser = statements stage.parser ∧
      Inside ((Stage.initial lexed).placed stage.place) marker made stage

namespace Underway

variable {lexed : Lexed} {text : List Char} {made more : List Shape}

/-- Nothing has been read yet. -/
theorem exists_start (lexed : Lexed) : ∃ first : Stage lexed, Underway lexed [] first ∧
    first.rest = (Stage.initial lexed).rest ∧ first.place = (Stage.initial lexed).place := by
  obtain ⟨marker, first, marked, inside, rest⟩ : Reaches Grammar.mark (.initial lexed)
      fun marker first => Inside (.initial lexed) marker [] first ∧
        first.rest = (Stage.initial lexed).rest :=
    reaches_mark fun _ _ inside rest => ⟨inside, rest⟩
  have place := inside.later.place
  refine ⟨first, ⟨marker, first, marked, rfl, ?_⟩, rest, place⟩
  rw [place]
  exact inside

theorem trans {stage after : Stage lexed} (underway : Underway lexed made stage)
    (goesOn : statements stage.parser = statements after.parser)
    (adds : Adds stage more (after.placed stage.place)) : Underway lexed (made ++ more) after := by
  obtain ⟨marker, first, marked, ran, inside⟩ := underway
  refine ⟨marker, first, marked, ran.trans goesOn, ?_⟩
  have adds' : Adds (stage.placed after.place) more after := adds.replaced after.place
  exact (inside.replaced after.place).adds adds'

/-- Reading the statements of a text comes to an end. -/
theorem ends {stage : Stage lexed} (underway : Underway lexed made stage) :
    ∃ parser, statements stage.parser = some ((), parser) := by
  obtain ⟨marker, first, marked, ran, -⟩ := underway
  obtain ⟨_, parser, whole, -⟩ := ends_file (Stage.initial lexed).since rfl
  rw [file_eq, run_bind, marked, Option.bind_some, run_bind, ran] at whole
  obtain ⟨⟨⟨⟩, parser'⟩, ended, -⟩ := Option.bind_eq_some_iff.1 whole
  exact ⟨parser', ended⟩

/-- The tree of a text is made of what its statements have been read into. -/
theorem rooted {stage after : Stage (tokenize text)} (underway : Underway (tokenize text) made stage)
    (ran : statements stage.parser = some ((), after.parser))
    (adds : Adds stage more (after.placed stage.place)) (nothing : after.rest = []) :
    Rooted (tokenize text) (made ++ more) (parse text).root := by
  obtain ⟨marker, first, marked, same, inside⟩ := underway
  have adds' : Adds (stage.placed after.place) more after := adds.replaced after.place
  have inside := (inside.replaced after.place).adds adds'
  obtain ⟨_, last, ended, file, left⟩ : Reaches (done marker .file) after fun _ last =>
      Adds ((Stage.initial (tokenize text)).placed after.place) [.node .file none (made ++ more)] last ∧
        last.rest = [] :=
    reaches_done inside fun _ adds rest => ⟨adds, rest.trans nothing⟩
  have whole : Grammar.file (Stage.initial (tokenize text)).parser = some ((), last.parser) := by
    rw [file_eq, run_bind, marked, Option.bind_some, run_bind, same, ran]
    exact ended
  have tree := Stage.rooted file.placed left
  rw [parse_of_file whole]
  exact tree

end Underway

/-! ## One text after another -/

section

variable {text more : List Char} {given : List Piece}

/-- The texts with and without the one that comes after it, which begin with the same lines. -/
def beside (text more : List Char) : Pair where
  left := tokenize (text ++ more)
  right := tokenize text
  leftTail := visible (tokenize more).stock.pieces
  rightTail := [mark .statementBreak]

theorem visible_ne_nil {text : List Char} (anew : BeginsAnew text) (filled : text ≠ []) :
    ∃ piece left, visible (tokenize text).stock.pieces = piece :: left ∧
      piece.1 ∉ [.semicolon, .reserved .elifWord, .reserved .elseWord, .indent, .dedent] := by
  obtain ⟨piece, left, parts, apart⟩ := anew.head filled
  rw [List.mem_cons, not_or] at apart
  refine ⟨piece, visible left, ?_, apart.2⟩
  show visible (pieces (tokenize text).tokens) = _
  rw [parts, visible, List.filter_cons_of_pos (by simpa using apart.1)]
  rfl

theorem tailed_beside (anew : BeginsAnew more) (filled : more ≠ []) : Tailed (beside text more) := by
  obtain ⟨piece, left, parts, -⟩ := visible_ne_nil anew filled
  refine ⟨?_, List.cons_ne_nil _ _⟩
  show visible (tokenize more).stock.pieces ≠ []
  rw [parts]
  exact List.cons_ne_nil _ _

/-- The starts of both texts. -/
def startBeside (complete : Complete text given) (anew : BeginsAnew more) (filled : more ≠ []) :
    Twin (beside text more) where
  left := .initial _
  right := .initial _
  ahead := visible given
  leftRest := by
    show (Stage.initial (tokenize (text ++ more))).rest = visible given ++ visible (pieces _)
    rw [Stage.rest_initial_eq, ← visible_append, ← complete.followed more anew filled]
    rfl
  rightRest := by
    show (Stage.initial (tokenize text)).rest = visible given ++ visible [mark .statementBreak]
    rw [Stage.rest_initial_eq, ← visible_append, ← complete.alone]
    rfl
  together := rfl

theorem border_startBeside (complete : Complete text given) (anew : BeginsAnew more)
    (filled : more ≠ []) : Border .free 0 (startBeside complete anew filled) where
  apart := by
    obtain ⟨piece, left, parts, apart⟩ := visible_ne_nil anew filled
    refine ⟨fun kind mem next => ?_, fun kind mem next => ?_⟩
    · change nextKind (visible (tokenize more).stock.pieces) = some kind at next
      rw [parts] at next
      cases next
      exact apart mem
    · cases next
      exact absurd mem (by decide)
  lined := ⟨0, complete.lined, Nat.le_refl _⟩
  depth := rfl
  calm := fun _ => rfl

/-- Nothing is left open at the border: the rules stand there as they do at the start of a text. -/
theorem place_of_border {pair : Pair} {form : Language Shape} {start after : Twin pair}
    (gains : Gains start form .free 0 after) (tailed : Tailed pair) (nothing : after.ahead = [])
    (calm : start.place.scopes.current.afterSemicolon = false) (settled : start.place.strayIndents = 0) :
    after.place = start.place := by
  have border := border_of_guarded tailed gains.guarded
  obtain ⟨owed, lined, enough⟩ := border.lined
  rw [nothing] at lined
  have none := lined.owed_eq_zero
  have stays := gains.stays
  have noStray : after.place.strayIndents = 0 := by omega
  have quiet := border.calm (.inl rfl)
  generalize after.place = place at stays noStray quiet
  obtain ⟨⟨⟨inFunction, inSuite, afterSemicolon⟩, outer⟩, blocks, strayIndents, depth⟩ := place
  generalize start.place = place' at stays calm settled
  obtain ⟨⟨⟨inFunction', inSuite', afterSemicolon'⟩, outer'⟩, blocks', strayIndents', depth'⟩ := place'
  change afterSemicolon = false at quiet
  change afterSemicolon' = false at calm
  change strayIndents = 0 at noStray
  change strayIndents' = 0 at settled
  subst quiet calm noStray settled
  exact stays

/-- The lines are read in both texts, up to the border. -/
theorem exists_lines (complete : Complete text given) (anew : BeginsAnew more) (filled : more ≠ []) :
    ∃ lines, ∃ last : Twin (beside text more),
      Underway (tokenize (text ++ more)) lines last.left ∧ Underway (tokenize text) lines last.right ∧
        visible given = leavesAll lines ∧ last.ahead = [] ∧
        last.place = (Stage.initial (tokenize more)).place := by
  have tailed : Tailed (beside text more) := tailed_beside anew filled
  have border := border_startBeside complete anew filled
  obtain ⟨left, begun, leftRest, leftPlace⟩ := Underway.exists_start (tokenize (text ++ more))
  obtain ⟨right, begun', rightRest, rightPlace⟩ := Underway.exists_start (tokenize text)
  let first : Twin (beside text more) :=
    { left, right
      ahead := visible given
      leftRest := leftRest.trans (startBeside complete anew filled).leftRest
      rightRest := rightRest.trans (startBeside complete anew filled).rightRest
      together := rightPlace.trans leftPlace.symm }
  have place : first.place = (startBeside complete anew filled).place := leftPlace
  have guarded : Guarded .free 0 first := Guarded.same (.inr border) rfl place
  obtain ⟨last, gains, nothing, goesOn⟩ :=
    exists_border tailed (border_of_guarded tailed guarded) (by rw [place]; rfl)
  obtain ⟨lines, since, -⟩ := gains.made
  refine ⟨lines, last, begun.trans goesOn.left since.left, begun'.trans goesOn.right since.right, ?_,
    nothing, ?_⟩
  · rw [show visible given = first.ahead from rfl, since.ahead, nothing, List.append_nil]
  · exact (place_of_border gains tailed nothing (by rw [place]; rfl) (by rw [place]; rfl)).trans place

/-- What comes after whole lines is read into what it is read into alone, and the lines are read into the
same whether anything comes after them or not. -/
theorem exists_made (complete : Complete text given) (anew : BeginsAnew more) (filled : more ≠ []) :
    ∃ lines made, visible given = leavesAll lines ∧
      Rooted (tokenize (text ++ more)) (lines ++ made) (parse (text ++ more)).root ∧
      Rooted (tokenize text) (lines ++ [.token (mark .statementBreak)]) (parse text).root ∧
      Rooted (tokenize more) made (parse more).root := by
  obtain ⟨lines, last, left, right, read, nothing, place⟩ := exists_lines complete anew filled
  -- From the border on, one text goes on like the other one begins.
  obtain ⟨first, begun, rest, here⟩ := Underway.exists_start (tokenize more)
  let start : Twin { left := tokenize (text ++ more), right := tokenize more } :=
    { left := last.left
      right := first
      ahead := visible (tokenize more).stock.pieces
      leftRest := last.leftRest.trans (by rw [nothing, List.append_nil]; rfl)
      rightRest := by rw [rest, List.append_nil, Stage.rest_initial_eq]
      together := here.trans place.symm }
  have whole : Abreast statements statements start _ :=
    abreast_statements ⟨rfl, rfl⟩ (congrArg Place.depth place) (congrArg Place.blocks place)
  obtain ⟨_, ran⟩ := left.ends
  obtain ⟨_, after, rfl, ran', ⟨standing, gains, ended⟩⟩ := whole _ _ ran
  obtain ⟨made, since, -⟩ := gains.made
  -- After the lines alone there is nothing but the end of the text.
  have only : last.right.rest = leavesAll (atTextEnd true) := by
    rw [last.rightRest, nothing]
    rfl
  have settled : last.right.place.Settled := by
    rw [last.together]
    exact ⟨congrArg (·.scopes.current.afterSemicolon) place, congrArg Place.strayIndents place⟩
  obtain ⟨_, final, ranEnd, rfl, adds⟩ := gives_textEnd settled true only
  refine ⟨lines, made, read, left.rooted ran since.left ?_, ?_, ?_⟩
  · rw [after.leftRest, ended]
    rfl
  · refine right.rooted ranEnd ?_ (adds.left (only.trans (List.append_nil _).symm))
    exact adds.settled
  · have rooted := begun.rooted ran' since.right (by rw [after.rightRest, ended]; rfl)
    exact rooted

/-! ## Trees -/

/-- The stock of the lines is used up before what comes after them. -/
theorem fillFile_append {stock more : Stock} (closed : stock.Closed) (fresh : more.Fresh)
    {lines : List Shape} (read : visible stock.pieces = leavesAll lines) (made : List Shape) :
    (stock ++ more).fillFile (lines ++ made) = (stock.fillAll lines).1 ++ more.fillFile made := by
  obtain ⟨filled, closed', left⟩ :=
    closed.fillAll_append fresh lines (read.trans (List.append_nil _).symm)
  have same : (⟨[], []⟩ : Stock) ++ more = more := rfl
  rw [Stock.fillFile, Stock.fillAll_append_shapes, filled, closed'.eq_nil left, same, List.append_assoc]
  rfl

end

theorem fresh_stock {text : List Char} (anew : BeginsAnew text) (filled : text ≠ []) :
    (tokenize text).stock.Fresh := by
  obtain ⟨piece, left, parts, apart⟩ := anew.head filled
  rw [List.mem_cons, not_or] at apart
  intro first mem
  rw [show (tokenize text).stock.pieces = _ from parts] at mem
  cases mem
  exact apart.1

theorem childNodes_nil : Tree.shapes (parse []).root.childNodes = [] := by
  cbv

/-- If a text ends with the end of a line that no bracket is open on, and another one begins with nothing
that would continue a statement, then both together have the nodes of the first and then those of the
second below their root. -/
theorem childNodes_append {text more : List Char} (whole : WholeLines text) (anew : BeginsAnew more) :
    Tree.shapes (parse (text ++ more)).root.childNodes =
      Tree.shapes (parse text).root.childNodes ++ Tree.shapes (parse more).root.childNodes := by
  by_cases filled : more = []
  · rw [filled, List.append_nil, childNodes_nil, List.append_nil]
  · obtain ⟨given, complete⟩ := whole.exists_complete
    obtain ⟨lines, made, read, rooted, rootedLines, rootedMore⟩ := exists_made complete anew filled
    have stock : (tokenize (text ++ more)).stock = ⟨given, messages text⟩ ++ (tokenize more).stock := by
      show Stock.mk _ (messages (text ++ more)) = _
      rw [complete.followed more anew filled, messages_append whole.lastIsBreak]
      rfl
    have stockLines : (tokenize text).stock =
        ⟨given, messages text⟩ ++ ⟨[mark .statementBreak], []⟩ := by
      rw [Lexed.stock, complete.alone]
      exact congrArg (Stock.mk _) (List.append_nil _).symm
    have closed : Stock.Fresh ⟨[mark .statementBreak], []⟩ := fun _ mem => by
      cases mem
      decide
    rw [rooted.shapes_childNodes, rootedLines.shapes_childNodes, rootedMore.shapes_childNodes, stock,
      stockLines, fillFile_append complete.closed (fresh_stock anew filled) read,
      fillFile_append complete.closed closed read, List.filter_append, List.filter_append]
    exact congrArg (· ++ _) (List.append_nil _).symm

/-- A bracket that is open over the end of a line, and two that close nothing. -/
theorem wholeLines_broken : WholeLines "if (\n:]\n) x)\n".toList where
  last := by
    have last : (Cursor.ofText "if (\n:]\n) x)\n".toList).read.getLast?.map Token.kind =
        some .lineBreak := by decide +kernel
    exact Option.map_eq_some_iff.1 last
  closed := by decide +kernel

theorem beginsAnew_assignment : BeginsAnew "y = 1".toList where
  level line found := by
    have first : ((linesFrom 0 [] (Cursor.ofText "y = 1".toList).read).find? Line.hasCode).map
        Line.indentation = some 0 := by decide +kernel
    rw [found] at first
    exact Option.some.inj first
  apart token found := by
    have first : ((Cursor.ofText "y = 1".toList).read.find? isCode).map Token.kind =
        some .identifier := by decide +kernel
    rw [found] at first
    rw [Option.some.inj first]
    decide

theorem childNodes_append_of_broken :
    let text := "if (\n:]\n) x)\n".toList
    let more := "y = 1".toList
    WholeLines text ∧ BeginsAnew more ∧ Tree.shapes (parse (text ++ more)).root.childNodes =
      Tree.shapes (parse text).root.childNodes ++ Tree.shapes (parse more).root.childNodes :=
  ⟨wholeLines_broken, beginsAnew_assignment, childNodes_append wholeLines_broken beginsAnew_assignment⟩

end StarlarkSyntax
