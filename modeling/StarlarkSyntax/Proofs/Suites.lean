import StarlarkSyntax.Proofs.Twin.File
/-!
# Where suites end

In a text without errors, a suite on the line of its colon ends with that line, unless the next line begins
with a semicolon (`breaksLast_of_parse`). A block ends at the dedent that matches its indent, which comes right
after the list of its statements; if there is no such dedent, then nothing at all comes after the list
(`block_of_parse`).
-/

set_option autoImplicit false

namespace StarlarkSyntax

open Layout (Piece)
open Grammar (indentsAfter)
open Form
open scoped Computability

namespace Shape

variable {made : List Shape}

/-! ## Suites on the line of their colon -/

/-- Is each end of a statement among some tokens the last of them, or before a semicolon? -/
def BreaksLast : List Piece → Prop
  | [] => True
  | piece :: pieces =>
    (piece.1 = .statementBreak → pieces = [] ∨ nextKind pieces = some .semicolon) ∧ BreaksLast pieces

theorem BreaksLast.append_of_plain {pieces more : List Piece}
    (plain : ∀ piece ∈ pieces, piece.1.isLayout = false) (last : BreaksLast more) :
    BreaksLast (pieces ++ more) := by
  induction pieces with
  | nil => exact last
  | cons piece pieces ih =>
      obtain ⟨here, plain⟩ := List.forall_mem_cons.1 plain
      refine ⟨fun is => ?_, ih plain⟩
      rw [is] at here
      cases here

/-- What comes after an end of a statement begins with a semicolon. -/
theorem BreaksLast.append {pieces more : List Piece} (first : BreaksLast pieces) (second : BreaksLast more)
    (begins : more = [] ∨ nextKind more = some .semicolon) : BreaksLast (pieces ++ more) := by
  induction pieces with
  | nil => exact second
  | cons piece pieces ih =>
      obtain ⟨here, first⟩ := first
      refine ⟨fun is => ?_, ih first⟩
      rcases here is with rfl | semicolon
      · exact begins
      · refine .inr ?_
        cases pieces with
        | nil => cases semicolon
        | cons => exact semicolon

/-- What comes after the first statement of a suite on the line of its colon. -/
structure Follows (made : List Shape) : Prop where
  breaks : BreaksLast (leavesAll made)
  begins : leavesAll made = [] ∨ nextKind (leavesAll made) = some .semicolon

instance : Joining Follows where
  nil := ⟨trivial, .inl rfl⟩
  append := fun {made made'} first second => by
    refine ⟨?_, ?_⟩
    · rw [leavesAll_append]
      exact first.breaks.append second.breaks second.begins
    · rw [leavesAll_append]
      rcases first.begins with nothing | semicolon
      · rw [nothing]
        exact second.begins
      · refine .inr ?_
        cases leaves : leavesAll made with
        | nil => simp [leaves] at semicolon
        | cons => simpa [leaves] using semicolon

theorem breaksLast_of_ending (mem : made ∈ ending) : BreaksLast (leavesAll made) := by
  obtain ⟨_, semicolon, _, lineEnd, rfl⟩ := mem
  rcases semicolon with rfl | ⟨body, rfl⟩ <;> rcases lineEnd with rfl | ⟨body', rfl⟩ <;>
    simp [BreaksLast]

/-- A statement that holds no other statements ends with its line. -/
theorem breaksLast_of_simple (simple : made ∈ simple) (bound : AllBound made) : BreaksLast (leavesAll made) := by
  obtain ⟨kind, is, children, rfl⟩ := simple
  obtain ⟨row, letters, last, ending, rfl⟩ := form_le_of_simple is bound.1.1.wellFormed
  have inside := (allBound_append _ _).1 bound.1.2
  rw [leavesAll_cons, leaves_node, leavesAll_nil, List.append_nil, leavesAll_append]
  exact .append_of_plain (plain_of_lettered inside.1 letters) (breaksLast_of_ending ending)

theorem follows_of_semicolon {body : List Char} (breaks : BreaksLast (leavesAll made)) :
    Follows (.token (.semicolon, body) :: made) :=
  ⟨⟨nofun, breaks⟩, .inr rfl⟩

theorem rounds_le : (Form.token .semicolon * optional simple)∗ ≤ such (IfEach Bound Follows) := by
  refine kstar_le_such ?_
  rintro _ ⟨_, ⟨body, rfl⟩, made, mem, rfl⟩ each
  refine follows_of_semicolon ?_
  rcases mem with nothing | simple
  · rw [show made = [] from nothing]
    trivial
  · exact breaksLast_of_simple simple ((allBound_iff _).2 (List.forall_mem_cons.1 each).2)

/-- In a suite on the line of its colon, the end of a statement is the last token or comes before a semicolon. -/
theorem breaksLast_of_line (line : made ∈ line) (bound : AllBound made) : BreaksLast (leavesAll made) := by
  obtain ⟨_, ⟨first, simple, rounds, more, rfl⟩, last, close, rfl⟩ := line
  have last_le : optional (Form.token .semicolon * Form.token .statementBreak) ≤ such (IfEach Bound Follows) := by
    refine optional_le_such ?_
    rintro _ ⟨_, ⟨body, rfl⟩, _, ⟨body', rfl⟩, rfl⟩ -
    exact follows_of_semicolon ⟨fun _ => .inl rfl, trivial⟩
  dsimp only at bound ⊢
  rw [List.append_assoc] at bound ⊢
  obtain ⟨inside, after⟩ := (allBound_append _ _).1 bound
  have follows : Follows (rounds ++ last) :=
    mul_le_such rounds_le last_le (Language.append_mem_mul more close) ((allBound_iff _).1 after)
  rw [leavesAll_append]
  exact (breaksLast_of_simple simple inside).append follows.breaks follows.begins

end Shape

/-- In a text without errors, the end of a statement in a suite on the line of its colon is the last token of the
suite, unless the next line begins with a semicolon. -/
theorem breaksLast_of_parse (text : List Char) (fine : (parse text).hasErrors = false) :
    ∀ node ∈ (parse text).root.nodes, ∀ message? children, node.shape = [.node .statementList message? children] →
      (∀ body, Shape.token (.indent, body) ∉ children) → Shape.BreaksLast (Shape.leavesAll children) := by
  intro node mem message? children is direct
  obtain ⟨shape, is', bound⟩ := Tree.bound_of_mem_nodes (allBound_of_parse fine) mem
  cases is.symm.trans is'
  rcases bound.1.wellFormed with ⟨_, ⟨body, rfl⟩, statements, -, rfl⟩ | line
  · exact absurd List.mem_cons_self (direct body)
  · exact Shape.breaksLast_of_line line bound.2

/-! ## Blocks -/

/-- The tokens up to the dedent that matches an indent, where so many indents are open, if there is one. -/
def uptoDedent? : Nat → List Piece → Option (List Piece)
  | _, [] => none
  | depth, piece :: pieces =>
    if indentsAfter depth piece.1 = 0 then some []
    else (uptoDedent? (indentsAfter depth piece.1) pieces).map (piece :: ·)

/-- Do some tokens leave so many of their indents open, and have no dedents of others? -/
def Opens (more : Nat) (pieces : List Piece) : Prop :=
  ∀ depth left, uptoDedent? (depth + 1) (pieces ++ left) =
    (uptoDedent? (depth + more + 1) left).map (pieces ++ ·)

section

variable {more more' : Nat} {pieces pieces' : List Piece} {piece : Piece}

theorem opens_nil : Opens 0 [] := fun depth left => by simp

theorem Opens.append (first : Opens more pieces) (second : Opens more' pieces') :
    Opens (more + more') (pieces ++ pieces') := by
  intro depth left
  rw [List.append_assoc, first, second, Option.map_map, Nat.add_assoc depth]
  simp [Function.comp_def]

theorem opens_token (plain : piece.1.isLayout = false ∨ piece.1 = .statementBreak) : Opens 0 [piece] := by
  intro depth left
  have same : indentsAfter (depth + 1) piece.1 = depth + 1 := by
    unfold indentsAfter
    split <;> rename_i is <;> simp_all [Kind.isLayout]
  rw [List.singleton_append, uptoDedent?, same, if_neg (Nat.succ_ne_zero depth)]
  rfl

theorem opens_indent (body : List Char) : Opens 1 [(.indent, body)] :=
  fun _ _ => rfl

/-- What is between an indent and its dedent. -/
theorem Opens.close (inside : Opens 0 pieces) {body body' : List Char} :
    Opens 0 ((.indent, body) :: pieces ++ [(.dedent, body')]) := by
  intro depth left
  have opened := (opens_indent body).append inside depth ((.dedent, body') :: left)
  have closed : uptoDedent? (depth + (1 + 0) + 1) ((.dedent, body') :: left) =
      (uptoDedent? (depth + 1) left).map ((.dedent, body') :: ·) := rfl
  rw [closed, Option.map_map, List.singleton_append] at opened
  rw [List.append_assoc, List.singleton_append, opened]
  simp [Function.comp_def]

end

namespace Shape

variable {made : List Shape} {kind : NodeKind} {message? : Option String}

/-- Do some shapes leave an indent open only where nothing comes after them? -/
structure Levels (made : List Shape) : Prop where
  begins : ¬BeginsDedent made
  opens : ∀ others rest, ¬BeginsDedent others → AllShut rest (made ++ others) →
    ∃ more, (leavesAll others ++ rest ≠ [] → more = 0) ∧ Opens more (leavesAll made)

theorem not_beginsDedent_nil : ¬BeginsDedent [] := nofun

theorem not_beginsDedent_append {made' : List Shape} (first : ¬BeginsDedent made) (second : ¬BeginsDedent made') :
    ¬BeginsDedent (made ++ made') := by
  cases made with
  | nil => exact second
  | cons shape made =>
      rintro ⟨body, rest, is⟩
      exact first ⟨body, made, by rw [(List.cons.inj is).1]⟩

instance : Joining Levels where
  nil := ⟨not_beginsDedent_nil, fun _ _ _ _ => ⟨0, fun _ => rfl, opens_nil⟩⟩
  append := fun {made made'} first second => by
    refine ⟨not_beginsDedent_append first.begins second.begins, fun others rest other shut => ?_⟩
    rw [List.append_assoc] at shut
    obtain ⟨more, closed, opens⟩ := first.opens _ _ (not_beginsDedent_append second.begins other) shut
    obtain ⟨more', closed', opens'⟩ := second.opens _ _ other shut.of_append
    refine ⟨more + more', fun some => ?_, ?_⟩
    · rw [closed' some, closed fun none => some ?_]
      rw [leavesAll_append, List.append_assoc, List.append_eq_nil_iff] at none
      exact none.2
    · rw [leavesAll_append]
      exact opens.append opens'

theorem levels_token {piece : Piece} (plain : piece.1.isLayout = false ∨ piece.1 = .statementBreak) :
    Levels [token piece] := by
  refine ⟨?_, fun _ _ _ _ => ⟨0, fun _ => rfl, opens_token plain⟩⟩
  rintro ⟨body, rest, is⟩
  obtain ⟨⟨⟩, -⟩ := List.cons.inj is
  rcases plain with plain | plain <;> cases plain

/-- A node that is no block leaves open what its children do. -/
theorem Levels.node (levels : Levels made) : Levels [.node kind message? made] := by
  refine ⟨nofun, fun others rest other shut => ?_⟩
  have inside : AllShut (leavesAll others ++ rest) (made ++ []) := by
    rw [List.append_nil]
    exact shut.1
  obtain ⟨more, closed, opens⟩ := levels.opens _ _ not_beginsDedent_nil inside
  refine ⟨more, closed, ?_⟩
  rw [leavesAll_cons, leaves_node, leavesAll_nil, List.append_nil]
  exact opens

/-- Do the children of a node leave an indent open only where nothing comes after them, apart from the indent
that a block begins with? -/
def Held : Shape → Prop
  | node .statementList _ (token (.indent, _) :: inside) => Levels inside
  | node _ _ children => Levels children
  | token _ => True

theorem held_iff {children : List Shape} (other : kind ≠ .statementList) :
    Held (.node kind message? children) ↔ Levels children := by
  unfold Held
  split
  · rename_i is
    cases is
    exact absurd rfl other
  · rename_i is
    cases is
    rfl
  · rename_i is
    cases is

section

variable {inside : List Shape} {body body' : List Char}

/-- A block without its dedent leaves its indent open, and nothing comes after it. -/
theorem levels_block (levels : Levels inside) :
    Levels [.node .statementList message? (.token (.indent, body) :: inside)] := by
  refine ⟨nofun, fun others rest other shut => ?_⟩
  have last : leavesAll others ++ rest = [] := (shut.2.1 rfl).resolve_left other
  obtain ⟨more, -, opens⟩ := levels.opens [] _ not_beginsDedent_nil (by
    rw [List.append_nil]
    exact shut.1.2.2)
  refine ⟨1 + more, fun some => absurd last some, ?_⟩
  rw [leavesAll_cons, leaves_node, leavesAll_nil, List.append_nil]
  exact (opens_indent body).append opens

/-- A block with its dedent leaves nothing open. -/
theorem levels_blockDedent (levels : Levels inside) : Levels
    [.node .statementList message? (.token (.indent, body) :: inside), .token (.dedent, body')] := by
  refine ⟨nofun, fun others rest other shut => ⟨0, fun _ => rfl, ?_⟩⟩
  obtain ⟨more, closed, opens⟩ := levels.opens [] _ not_beginsDedent_nil (by
    rw [List.append_nil]
    exact shut.1.2.2)
  rw [closed (by simp)] at opens
  exact opens.close

end

/-- The words that leave an indent open only where nothing comes after them, if their nodes do. -/
abbrev leveled : Language Shape := such (IfEach Held Levels)

theorem token_le_leveled {kind : Kind} (plain : kind.isLayout = false ∨ kind = .statementBreak) :
    Form.token kind ≤ leveled := by
  rintro _ ⟨body, rfl⟩ -
  exact levels_token plain

theorem node_le_leveled (other : kind ≠ .statementList) : Form.node kind ≤ leveled := by
  rintro _ ⟨children, rfl⟩ each
  exact ((held_iff other).1 (List.forall_mem_singleton.1 each)).node

theorem row_le_leveled : lettered .row ≤ leveled := by
  refine lettered_le_such fun shape row each => ?_
  cases shape with
  | token piece => exact levels_token (.inl (by simpa [Alphabet.has, Alphabet.row] using row))
  | node kind message? children =>
      refine ((held_iff ?_).1 (List.forall_mem_singleton.1 each)).node
      rintro rfl
      cases row

theorem suite_le_leveled : suite ≤ leveled := by
  refine add_le ?_ ?_
  · rintro _ ⟨_, ⟨_, ⟨end', rfl⟩, _, ⟨_, ⟨_, ⟨body, rfl⟩, inside, -, rfl⟩, rfl⟩, rfl⟩,
      dedent, mem, rfl⟩ each
    have held : Levels inside := each (.node .statementList none (.token (.indent, body) :: inside)) (by simp)
    have line : Levels [token (.statementBreak, end')] := levels_token (.inr rfl)
    rcases mem with nothing | ⟨body', rfl⟩
    · rw [show dedent = [] from nothing]
      exact show Levels ([token (.statementBreak, end')] ++ [_]) from Joining.append line (levels_block held)
    · exact show Levels ([token (.statementBreak, end')] ++ [_, _]) from
        Joining.append line (levels_blockDedent held)
  · rintro _ ⟨children, line, rfl⟩ each
    obtain ⟨_, ⟨_, ⟨_, -, first, rfl⟩, _, -, rfl⟩, _, -, rfl⟩ := line
    have held := List.forall_mem_singleton.1 each
    exact Levels.node (show Levels _ from held)

theorem statement_le_leveled : statement ≤ leveled := by
  rintro _ ⟨kind, is, mem⟩
  refine node_le_leveled ?_ mem
  rintro rfl
  cases is

theorem statements_le_leveled : statements ≤ leveled :=
  kstar_le_such (add_le statement_le_leveled (token_le_leveled (.inr rfl)))

theorem line_le_leveled : line ≤ leveled := by
  have simple_le : simple ≤ leveled := statement_of_simple.trans statement_le_leveled
  have semicolon_le : Form.token .semicolon ≤ leveled := token_le_leveled (.inl rfl)
  have break_le : Form.token .statementBreak ≤ leveled := token_le_leveled (.inr rfl)
  unfold line
  apply_rules [mul_le_such, kstar_le_such, optional_le_such]

theorem form_le_leveled (other : kind ≠ .statementList) : kind.form ≤ leveled := by
  have token_le {kind : Kind} (plain : kind.isLayout = false) : Form.token kind ≤ leveled :=
    token_le_leveled (.inl plain)
  have expression_le : expression ≤ leveled := expression_le_row.trans row_le_leveled
  have signature_le : signature ≤ leveled := (nodeOf_le_lettered rfl).trans row_le_leveled
  have body_le : body ≤ leveled := mul_le_such (token_le rfl) suite_le_leveled
  have branch_le (word : Reserved) : branch word ≤ leveled :=
    mul_le_such (mul_le_such (token_le rfl) expression_le) body_le
  by_cases row : kind.isRow = true
  · exact (form_le_row row).trans row_le_leveled
  by_cases simple : kind.isSimple = true
  · refine (form_le_of_simple simple).trans (mul_le_such row_le_leveled ?_)
    exact mul_le_such (optional_le_such (token_le rfl)) (optional_le_such (token_le_leveled (.inr rfl)))
  cases kind with
  | file => exact statements_le_leveled
  | error => exact fun _ => False.elim
  | statementList => exact absurd rfl other
  | ifStatement =>
      refine mul_le_such (mul_le_such (branch_le _) (kstar_le_such (branch_le _))) (optional_le_such ?_)
      exact mul_le_such (token_le rfl) body_le
  | forStatement | functionDeclaration =>
      dsimp only [NodeKind.form]
      apply_rules [mul_le_such, token_le, rfl]
  | _ => first | exact absurd rfl row | exact absurd rfl simple

theorem held_of_bound (shape : Shape) (bound : shape.Bound) : Held shape := by
  refine bound.induction (fun _ => trivial) fun kind message? children wellMade each => ?_
  by_cases list : kind = .statementList
  · subst list
    rcases wellMade.wellFormed with ⟨_, ⟨body, rfl⟩, inside, statements, rfl⟩ | line
    · exact statements_le_leveled statements fun shape mem => each shape (List.mem_cons_of_mem _ mem)
    · have levels : Levels children := line_le_leveled line each
      obtain ⟨_, ⟨_, ⟨_, -, first, rfl⟩, _, -, rfl⟩, _, -, rfl⟩ := line
      exact levels
  · exact (held_iff list).2 (form_le_leveled list wellMade.wellFormed each)

/-! ## Parts of a tree -/

/-- A part of some shapes, with the tokens before it and those after it. -/
inductive Part : List Shape → List Piece → Shape → List Piece → Prop
  | here (before : List Shape) (shape : Shape) (after : List Shape) :
    Part (before ++ shape :: after) (leavesAll before) shape (leavesAll after)
  | inside {children : List Shape} {front back : List Piece} {part : Shape} (before : List Shape)
    (kind : NodeKind) (message? : Option String) (after : List Shape) (inside : Part children front part back) :
    Part (before ++ .node kind message? children :: after) (leavesAll before ++ front) part
      (back ++ leavesAll after)

section

variable {front back rest : List Piece} {part : Shape}

theorem Part.leaves (is : Part made front part back) : leavesAll made = front ++ part.leaves ++ back := by
  induction is with
  | here before shape after => simp
  | inside before kind message? after inside ih => simp [ih]

theorem Part.bound (is : Part made front part back) (bound : AllBound made) : part.Bound := by
  induction is with
  | here before shape after => exact ((allBound_append _ _).1 bound).2.1
  | inside before kind message? after inside ih => exact ih ((allBound_append _ _).1 bound).2.1.2

theorem Part.shut (is : Part made front part back) (shut : AllShut rest made) : Shut (back ++ rest) part := by
  induction is generalizing rest with
  | here before shape after => exact shut.of_append.1
  | inside before kind message? after inside ih =>
      rw [List.append_assoc]
      exact ih shut.of_append.1

end

end Shape

open Shape in
/-- In a text without errors, a block ends at the dedent that matches its indent: the tokens between them are in
the list of its statements, and the dedent comes right after that. If there is no such dedent, nothing comes
after the list. -/
theorem block_of_parse (text : List Char) (fine : (parse text).hasErrors = false)
    {front back : List Piece} {kind : NodeKind} {message? message?' : Option String}
    {before inside after : List Shape} {body : List Char}
    (part : Part (parse text).root.shape front (.node kind message?
      (before ++ .node .statementList message?' (.token (.indent, body) :: inside) :: after)) back) :
    ∃ ahead, Layout.pieces (parse text).root.leaves = front ++ leavesAll before ++ (.indent, body) :: ahead ∧
      (BeginsDedent after ∧ uptoDedent? 1 ahead = some (leavesAll inside) ∨
        leavesAll after ++ back = [] ∧ uptoDedent? 1 ahead = none) := by
  have shut := (part.shut (allShut_of_parse fine)).of_append
  rw [List.append_nil] at shut
  have held : Levels inside :=
    held_of_bound _ ((allBound_append _ _).1 (part.bound (allBound_of_parse fine)).2).2.1
  obtain ⟨more, closed, opens⟩ := held.opens [] _ not_beginsDedent_nil (by
    rw [List.append_nil]
    exact shut.1.2.2)
  refine ⟨leavesAll inside ++ (leavesAll after ++ back), ?_, ?_⟩
  · rw [← Tree.leavesAll_shape, part.leaves]
    simp
  · have passed := opens 0 (leavesAll after ++ back)
    rcases shut.2.1 rfl with ⟨body', rest, rfl⟩ | nothing
    · rw [closed (by simp)] at passed
      refine .inl ⟨⟨body', rest, rfl⟩, passed.trans ?_⟩
      rw [leavesAll_cons, leaves_token]
      exact congrArg some (List.append_nil _)
    · rw [nothing] at passed ⊢
      exact .inr ⟨rfl, passed⟩

end StarlarkSyntax
