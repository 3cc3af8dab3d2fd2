import StarlarkSyntax.Proofs.Layout.LineByLine
import StarlarkSyntax.Proofs.Lexing.Local
import StarlarkSyntax.Proofs.Print.Sound
/-!
# Reading lines that were written

A row is a line as it is written: some spaces, and pieces with a space between any two of them. Its
pieces are read back, and the layout of several rows depends only on how far they are indented
(`pieces_tokenize_rows`).
-/

set_option autoImplicit false

namespace StarlarkSyntax

open Layout (Piece)

/-! ## One token -/

/-- A token that a grammar sees does not begin with white space. -/
theorem not_isBlankInLine {c : Char} {rest : List Char} {length : Nat} {kind : Kind}
    (is : lexeme c rest = .ofKind length kind) (significant : kind.isSignificant = true) :
    ¬Lexeme.isBlankInLine c = true := by
  intro blank
  rw [lexeme, if_pos blank] at is
  cases is
  cases significant

/-- A piece is read in the same way where a break follows. -/
theorem lexeme_append {c : Char} {rest more : List Char} {kind : Kind}
    (is : lexeme c rest = .ofKind (rest.length + 1) kind) (significant : kind.isSignificant = true)
    (ends : IsBreak more) : lexeme c (rest ++ more) = .ofKind (rest.length + 1) kind := by
  have is : lexeme c (rest ++ []) = .ofKind (rest.length + 1) kind := by rwa [List.append_nil]
  have solid : kind ≠ .space ∧ kind ≠ .comment := by
    constructor <;> rintro rfl <;> cases significant
  exact lexeme_append_break is solid ends

namespace Cursor

variable {cursor : Cursor} {more : List Char}

/-- A token that is read at a cursor. -/
theorem read_cons {c : Char} {rest : List Char} {length : Nat} {kind : Kind}
    (is : lexeme c rest = .ofKind (length + 1) kind) (text : cursor.rest = c :: rest) :
    ∃ (token : Token) (after : Cursor), cursor.read = token :: after.read ∧
      token.piece = (kind, (c :: rest).take (length + 1)) ∧ after.rest = (c :: rest).drop (length + 1) := by
  have next : cursor.next? = some (⟨⟨kind, .ofCarets cursor.caret (cursor.skip (length + 1)).caret,
      cursor.rest.take (length + 1), cursor.offset⟩, none⟩, cursor.skip (length + 1)) := by
    unfold next?
    rw [text]
    dsimp only
    rw [is]
    simp [Lexeme.ofKind]
  refine ⟨_, cursor.skip (length + 1), congrArg (List.map Scanned.token) (scan_of_some next), ?_, ?_⟩
  · rw [Token.piece, text]
  · rw [skip_rest, text]

/-- A piece that was written is read where a space or the end of the line follows. -/
theorem read_piece {piece : Piece} (writable : Writable piece)
    (text : cursor.rest = piece.2 ++ more) (ends : IsBreak more) :
    ∃ (token : Token) (after : Cursor), cursor.read = token :: after.read ∧ token.piece = piece ∧ after.rest = more := by
  obtain ⟨kind, body⟩ := piece
  obtain ⟨⟨c, rest, same, is⟩, significant, -⟩ := writable
  dsimp only at same is significant text
  subst same
  obtain ⟨token, after, read, piece, left⟩ :=
    read_cons (lexeme_append is significant ends) (text.trans (List.cons_append ..))
  refine ⟨token, after, read, ?_, ?_⟩
  · rw [piece, ← List.cons_append, List.take_append_of_le_length (Nat.le_of_eq (List.length_cons ..).symm)]
    exact congrArg (Prod.mk kind) (List.take_of_length_le (Nat.le_of_eq (List.length_cons ..)))
  · rw [left, ← List.cons_append]
    exact List.drop_left' (List.length_cons ..)

theorem read_lineFeed (text : cursor.rest = '\n' :: more) :
    ∃ (token : Token) (after : Cursor), cursor.read = token :: after.read ∧ token.kind = .lineBreak ∧ after.rest = more := by
  obtain ⟨token, after, read, piece, left⟩ :=
    read_cons (show lexeme '\n' more = .ofKind (0 + 1) .lineBreak from rfl) text
  exact ⟨token, after, read, congrArg Prod.fst piece, left⟩

/-- Spaces are one token if nothing that follows goes on with them. -/
theorem read_spaces {n : Nat} (text : cursor.rest = List.replicate (n + 1) ' ' ++ more)
    (solid : (more.head?.map Lexeme.isBlankInLine).getD false = false) :
    ∃ (token : Token) (after : Cursor), cursor.read = token :: after.read ∧
      token.piece = (.space, List.replicate (n + 1) ' ') ∧ after.rest = more := by
  have run (n : Nat) : Lexeme.run Lexeme.isBlankInLine (List.replicate n ' ' ++ more) = n := by
    induction n with
    | zero =>
        cases more with
        | nil => rfl
        | cons c more =>
            rw [List.replicate_zero, List.nil_append, Lexeme.run_cons, if_neg]
            simpa using solid
    | succ n ih => rw [List.replicate_succ, List.cons_append, Lexeme.run_cons,
          if_pos (show Lexeme.isBlankInLine ' ' = true from rfl), ih]
  have is : lexeme ' ' (List.replicate n ' ' ++ more) = .ofKind (n + 1) .space := by
    rw [lexeme, if_pos (show Lexeme.isBlankInLine ' ' = true from rfl), ← List.cons_append,
      ← List.replicate_succ, run]
  rw [List.replicate_succ, List.cons_append] at text
  obtain ⟨token, after, read, piece, left⟩ := read_cons is text
  refine ⟨token, after, read, ?_, ?_⟩
  · rw [piece, ← List.cons_append, ← List.replicate_succ, List.take_left' (List.length_replicate ..)]
  · rw [left, ← List.cons_append, ← List.replicate_succ, List.drop_left' (List.length_replicate ..)]

end Cursor

/-! ## Pieces with spaces between them -/

/-- Some tokens are the code of a line: they give some pieces, and the first of them is code. -/
structure AreCode (pieces : List Piece) (tokens : List Token) : Prop where
  pieces : Layout.pieces tokens = pieces
  goesOn : ∀ token ∈ tokens, token.kind ≠ .lineBreak
  first : ∃ token more, tokens = token :: more ∧ Layout.isCode token = true

theorem Writable.notTrivia {piece : Piece} (writable : Writable piece) : piece.1.isTrivia = false := by
  have := writable.significant
  rw [Kind.isSignificant, Bool.and_eq_true, Bool.not_eq_true'] at this
  exact this.1

/-- A piece that was written begins with something other than white space. -/
theorem Writable.solid {piece : Piece} (writable : Writable piece) (more : List Char) :
    ((piece.2 ++ more).head?.map Lexeme.isBlankInLine).getD false = false := by
  obtain ⟨⟨c, rest, same, is⟩, significant, -⟩ := writable
  rw [same]
  exact Bool.eq_false_iff.2 (not_isBlankInLine is significant)

theorem areCode_cons {piece : Piece} {token : Token} {tokens : List Token} {pieces : List Piece}
    (writable : Writable piece) (is : token.piece = piece) (rest : Layout.pieces tokens = pieces)
    (goesOn : ∀ token ∈ tokens, token.kind ≠ .lineBreak) :
    AreCode (piece :: pieces) (token :: tokens) := by
  subst is
  have code : Layout.isCode token = true := by
    rw [Layout.isCode, show token.kind.isTrivia = false from writable.notTrivia]
    rfl
  refine ⟨?_, List.forall_mem_cons.2 ⟨fun lineBreak => ?_, goesOn⟩, token, tokens, rfl, code⟩
  · rw [Layout.pieces_cons, if_pos code, rest]
    rfl
  · rw [Layout.isCode, lineBreak] at code
    cases code

theorem solid_spaced {pieces : List Piece} (some : pieces ≠ [])
    (writable : ∀ piece ∈ pieces, Writable piece) (more : List Char) :
    ((spaced pieces ++ more).head?.map Lexeme.isBlankInLine).getD false = false := by
  cases pieces with
  | nil => contradiction
  | cons piece pieces =>
      have first := writable piece List.mem_cons_self
      cases pieces with
      | nil => exact first.solid more
      | cons =>
          rw [spaced, List.append_assoc]
          exact first.solid _

theorem Cursor.read_spaced {pieces : List Piece} (some : pieces ≠ [])
    (writable : ∀ piece ∈ pieces, Writable piece) {cursor : Cursor} {more : List Char}
    (text : cursor.rest = spaced pieces ++ more) (ends : IsBreak more) :
    ∃ (tokens : List Token) (after : Cursor), cursor.read = tokens ++ after.read ∧
      after.rest = more ∧ AreCode pieces tokens := by
  induction pieces generalizing cursor with
  | nil => contradiction
  | cons piece pieces ih =>
      obtain ⟨first, others⟩ := List.forall_mem_cons.1 writable
      cases pieces with
      | nil =>
          obtain ⟨token, after, read, is, rest⟩ := read_piece first text ends
          exact ⟨[token], after, read, rest, areCode_cons first is rfl (by decide)⟩
      | cons next pieces =>
          rw [spaced, List.append_assoc] at text
          obtain ⟨token, middle, read, is, rest⟩ := read_piece first text (.space _)
          obtain ⟨space, last, read', isSpace, rest⟩ :=
            read_spaces (show middle.rest = List.replicate (0 + 1) ' ' ++ _ from rest)
              (solid_spaced (List.cons_ne_nil next pieces) others more)
          obtain ⟨tokens, after, read'', rest, code⟩ := ih (by rintro ⟨⟩) others rest
          have trivia : Layout.isCode space = false := by
            rw [Layout.isCode, show space.kind = .space from congrArg Prod.fst isSpace]
            rfl
          refine ⟨token :: space :: tokens, after, ?_, rest, areCode_cons first is ?_ ?_⟩
          · rw [read, read', read'']
            rfl
          · rw [Layout.pieces_cons, if_neg (by rw [trivia]; exact Bool.false_ne_true), code.pieces]
          · refine List.forall_mem_cons.2 ⟨?_, code.goesOn⟩
            rw [show space.kind = .space from congrArg Prod.fst isSpace]
            rintro ⟨⟩

/-! ## Rows -/

/-- A line as it is written: how far it is indented, and its pieces. -/
structure Row where
  indent : Nat
  pieces : List Piece

def Row.text (row : Row) : List Char :=
  List.replicate row.indent ' ' ++ spaced row.pieces

/-- A row has pieces that can be written, and its brackets are closed. -/
structure Row.Fine (row : Row) : Prop where
  notEmpty : row.pieces ≠ []
  writable : ∀ piece ∈ row.pieces, Writable piece
  closed : row.pieces.foldl (fun depth piece => Layout.depthAfter depth piece.1) 0 = 0

/-- Some tokens are those of a row. -/
structure AreRow (row : Row) (tokens : List Token) : Prop where
  pieces : Layout.pieces tokens = row.pieces
  goesOn : ∀ token ∈ tokens, token.kind ≠ .lineBreak
  indentation : ∀ broken, Layout.Line.indentation ⟨tokens, broken⟩ = row.indent

theorem columnAfter_spaces (column n : Nat) :
    Layout.columnAfter column (List.replicate n ' ') = column + n := by
  induction n generalizing column with
  | zero => rfl
  | succ n ih =>
      rw [List.replicate_succ, Layout.columnAfter, ih]
      omega

theorem Cursor.read_row {row : Row} (fine : row.Fine) {cursor : Cursor} {more : List Char}
    (text : cursor.rest = row.text ++ more) (ends : IsBreak more) :
    ∃ (tokens : List Token) (after : Cursor), cursor.read = tokens ++ after.read ∧
      after.rest = more ∧ AreRow row tokens := by
  obtain ⟨indent, pieces⟩ := row
  obtain ⟨notEmpty, writable, closed⟩ := fine
  dsimp only at notEmpty writable
  -- The tokens begin with code, which ends the white space before it.
  have spaces {tokens : List Token} (code : AreCode pieces tokens) :
      tokens.takeWhile (·.kind == .space) = [] := by
    obtain ⟨token, more, rfl, is⟩ := code.first
    rw [List.takeWhile_cons, if_neg]
    intro space
    rw [Layout.isCode, eq_of_beq space] at is
    cases is
  cases indent with
  | zero =>
      obtain ⟨tokens, after, read, rest, code⟩ := read_spaced notEmpty writable text ends
      refine ⟨tokens, after, read, rest, code.pieces, code.goesOn, fun broken => ?_⟩
      rw [Layout.Line.indentation, spaces code]
      rfl
  | succ indent =>
      rw [Row.text, List.append_assoc] at text
      obtain ⟨space, middle, read, isSpace, rest⟩ :=
        read_spaces text (solid_spaced notEmpty writable more)
      obtain ⟨tokens, after, read', rest, code⟩ := read_spaced notEmpty writable rest ends
      have kind : space.kind = .space := congrArg Prod.fst isSpace
      have body : space.body = List.replicate (indent + 1) ' ' := congrArg Prod.snd isSpace
      refine ⟨space :: tokens, after, ?_, rest, ?_, ?_, fun broken => ?_⟩
      · rw [read, read']
        rfl
      · rw [Layout.pieces_cons, if_neg (by rw [Layout.isCode, kind]; exact Bool.false_ne_true),
          code.pieces]
      · refine List.forall_mem_cons.2 ⟨?_, code.goesOn⟩
        rw [kind]
        rintro ⟨⟩
      · rw [Layout.Line.indentation, List.takeWhile_cons, if_pos (by rw [kind]; rfl), spaces code]
        show Layout.columnAfter 0 (space.body ++ []) = _
        rw [body, List.append_nil, columnAfter_spaces, Nat.zero_add]

/-! ## Lines of rows -/

theorem foldl_depthAfter (tokens : List Token) (depth : Nat) :
    tokens.foldl (fun depth token => Layout.depthAfter depth token.kind) depth =
      (Layout.pieces tokens).foldl (fun depth piece => Layout.depthAfter depth piece.1) depth := by
  induction tokens generalizing depth with
  | nil => rfl
  | cons token tokens ih =>
      rw [List.foldl_cons, ih, Layout.pieces_cons]
      split
      · rfl
      · rename_i trivia
        rw [Layout.depthAfter_of_not_code (Bool.not_eq_true _ ▸ trivia)]

theorem linesFrom_append_of_goesOn {tokens : List Token}
    (goesOn : ∀ token ∈ tokens, token.kind ≠ .lineBreak) (depth : Nat) (line more : List Token) :
    Layout.linesFrom depth line (tokens ++ more) =
      Layout.linesFrom (tokens.foldl (fun depth token => Layout.depthAfter depth token.kind) depth)
        (line ++ tokens) more := by
  induction tokens generalizing depth line with
  | nil => rw [List.nil_append, List.append_nil]; rfl
  | cons token tokens ih =>
      obtain ⟨first, goesOn⟩ := List.forall_mem_cons.1 goesOn
      rw [List.cons_append, Layout.linesFrom_of_ne first, ih goesOn, List.append_assoc,
        List.singleton_append, List.foldl_cons]

/-- The brackets of a row are closed at its end. -/
theorem AreRow.linesFrom {row : Row} {tokens : List Token} (are : AreRow row tokens)
    (fine : row.Fine) (more : List Token) :
    Layout.linesFrom 0 [] (tokens ++ more) = Layout.linesFrom 0 tokens more := by
  rw [linesFrom_append_of_goesOn are.goesOn, foldl_depthAfter, are.pieces, fine.closed,
    List.nil_append]

theorem AreRow.hasCode {row : Row} {tokens : List Token} (are : AreRow row tokens)
    (fine : row.Fine) (broken : Bool) : Layout.Line.hasCode ⟨tokens, broken⟩ = true := by
  by_contra without
  refine fine.notEmpty (are.pieces.symm.trans (Layout.pieces_eq_nil ?_))
  simpa [Layout.Line.hasCode] using without

/-- A row, its line and the lines after it. -/
theorem AreRow.layoutLines {row : Row} {tokens : List Token} (are : AreRow row tokens)
    (fine : row.Fine) (levels : List Nat) (broken : Bool) (lines : List Layout.Line) :
    Layout.layoutLines levels (⟨tokens, broken⟩ :: lines) =
      (Layout.indentTo row.indent levels).1 ++ row.pieces ++
        (if broken then [Layout.mark .statementBreak] else []) ++
        Layout.layoutLines (Layout.indentTo row.indent levels).2 lines := by
  rw [Layout.layoutLines, if_pos (are.hasCode fine broken), are.indentation, are.pieces]

/-- The pieces of a text are those of its lines. -/
theorem pieces_read (text : List Char) :
    Layout.pieces (tokenize text).tokens = Layout.lineByLine (Cursor.ofText text).read :=
  Layout.pieces_layout (Cursor.isEmpty_scan (.ofText text)) (Cursor.isChain_scan _)

/-- The pieces of a text of one line that is not indented. -/
theorem pieces_tokenize_spaced {pieces : List Piece} (fine : Row.Fine ⟨0, pieces⟩) :
    Layout.pieces (tokenize (spaced pieces)).tokens = pieces ++ [Layout.mark .statementBreak] := by
  obtain ⟨tokens, after, read, rest, are⟩ := Cursor.read_row fine
    (show (Cursor.ofText (spaced pieces)).rest = _ from (List.append_nil _).symm) .nil
  rw [Cursor.read_nil rest, List.append_nil] at read
  have some : tokens ≠ [] := fun none => fine.notEmpty (by rw [none] at are; exact are.pieces.symm)
  rw [pieces_read, show Cursor.read _ = tokens from read, Layout.lineByLine,
    if_neg (by simpa using some)]
  have lines := are.linesFrom fine []
  rw [List.append_nil, Layout.linesFrom] at lines
  rw [lines, are.layoutLines fine]
  simp [Layout.indentTo, Layout.dedentTo, Layout.layoutLines]

/-- What the pieces of some rows are with the tokens of layout, given the indentations of the open
blocks. -/
def layoutRows (levels : List Nat) : List Row → List Piece
  | [] => List.replicate (levels.length - 1) (Layout.mark .dedent)
  | row :: rows =>
    (Layout.indentTo row.indent levels).1 ++ row.pieces ++ Layout.mark .statementBreak ::
      layoutRows (Layout.indentTo row.indent levels).2 rows

/-- Rows as lines. -/
def textOfRows (rows : List Row) : List Char := rows.flatMap fun row => row.text ++ ['\n']

theorem layoutLines_read {rows : List Row} (fine : ∀ row ∈ rows, row.Fine) {cursor : Cursor}
    (text : cursor.rest = textOfRows rows) (levels : List Nat) :
    Layout.layoutLines levels (Layout.linesFrom 0 [] cursor.read) = layoutRows levels rows := by
  induction rows generalizing cursor levels with
  | nil =>
      rw [Cursor.read_nil text]
      rfl
  | cons row rows ih =>
      obtain ⟨first, fine⟩ := List.forall_mem_cons.1 fine
      rw [textOfRows, List.flatMap_cons, List.append_assoc, List.singleton_append] at text
      obtain ⟨tokens, middle, read, rest, are⟩ := Cursor.read_row first text (.lineFeed _)
      obtain ⟨token, after, read', lineBreak, rest⟩ := Cursor.read_lineFeed rest
      rw [read, read', are.linesFrom first, Layout.linesFrom, if_pos ⟨rfl, lineBreak⟩,
        are.layoutLines first, ih fine rest, layoutRows, List.append_assoc, if_pos rfl,
        List.singleton_append]

/-- The pieces of a text are those of its rows with the tokens of layout. -/
theorem pieces_tokenize_rows {rows : List Row} (fine : ∀ row ∈ rows, row.Fine) (some : rows ≠ []) :
    Layout.pieces (tokenize (textOfRows rows)).tokens =
      layoutRows [0] rows ++ [Layout.mark .statementBreak] := by
  have notEmpty : (Cursor.ofText (textOfRows rows)).read ≠ [] := by
    intro none
    have all := Cursor.textOf_scan (Cursor.ofText (textOfRows rows))
    rw [show List.map _ _ = [] from none] at all
    cases rows with
    | nil => contradiction
    | cons row rows =>
        have := congrArg List.length all
        simp [textOfRows, Token.textOf, Cursor.ofText] at this
  rw [pieces_read, Layout.lineByLine]
  show Layout.layoutLines [0] (Layout.linesFrom 0 [] (Cursor.ofText _).read) ++
    (if (Cursor.ofText _).read.isEmpty = true then _ else _) = _
  rw [layoutLines_read fine rfl, if_neg (by simpa using notEmpty)]

end StarlarkSyntax
