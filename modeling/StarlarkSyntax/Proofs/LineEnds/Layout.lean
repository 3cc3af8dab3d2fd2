import StarlarkSyntax.Proofs.Trivia.Layout
/-!
# Trivia that the layout does not see

The layout looks at trivia only for the white space that a line begins with, and there only at the column
that it leads to. So the kinds of the tokens that are put out are the same for tokens of the same kinds, if
their white space leads to the same columns, and white space that leads nowhere may come in between
(`kinds_lineByLine`).
-/

set_option autoImplicit false

namespace StarlarkSyntax.Layout

/-- Tokens of the same kinds, with white space that leads to the same columns, and perhaps more white space
that leads nowhere, but not behind the last token. -/
inductive Similar : List Token → List Token → Prop
  | nil : Similar [] []
  | cons {token token' : Token} {tokens tokens' : List Token} : token'.kind = token.kind →
      (token.kind = .space → ∀ column, columnAfter column token'.body = columnAfter column token.body) →
      Similar tokens tokens' → Similar (token :: tokens) (token' :: tokens')
  | gap {space : Token} {tokens tokens' : List Token} : space.kind = .space →
      (∀ column, columnAfter column space.body = column) → tokens ≠ [] →
      Similar tokens tokens' → Similar tokens (space :: tokens')

/-- What is no white space stands in both as often. -/
theorem Similar.count {tokens tokens' : List Token} (similar : Similar tokens tokens') {kind : Kind}
    (other : kind ≠ .space) : (tokens'.map Token.kind).count kind = (tokens.map Token.kind).count kind := by
  induction similar with
  | nil => rfl
  | cons same _ _ ih => rw [List.map_cons, List.map_cons, List.count_cons, List.count_cons, ih, same]
  | gap is _ _ _ ih => rw [List.map_cons, List.count_cons_of_ne (by rw [is]; exact other.symm), ih]

/-- Is there nothing but white space on the line? -/
def Line.isBlank (line : Line) : Bool := line.tokens.all (·.kind == .space)

/-- A line and one with tokens of the same kinds, which is indented in the same way. -/
structure Likeness (line line' : List Token) : Prop where
  kinds : (pieces line').map Prod.fst = (pieces line).map Prod.fst
  blank : Line.isBlank ⟨line', false⟩ = Line.isBlank ⟨line, false⟩
  indentation : Line.indentation ⟨line', false⟩ = Line.indentation ⟨line, false⟩

theorem isBlank_concat (line : List Token) (token : Token) (broken : Bool) :
    Line.isBlank ⟨line ++ [token], broken⟩ = (Line.isBlank ⟨line, broken⟩ && token.kind == .space) := by
  simp [Line.isBlank]

/-- White space leads on from the column where a line of white space ends, and nothing indents a line that
has something else on it. -/
theorem indentation_concat (line : List Token) (token : Token) : Line.indentation ⟨line ++ [token], false⟩ =
    if Line.isBlank ⟨line, false⟩ && token.kind == .space then
      columnAfter (Line.indentation ⟨line, false⟩) token.body
    else Line.indentation ⟨line, false⟩ := by
  unfold Line.indentation Line.isBlank
  dsimp only
  cases blank : line.all (·.kind == .space) with
  | false =>
      have stopped : (line.takeWhile (·.kind == .space)).length ≠ line.length := by
        intro all
        have whole := (List.takeWhile_prefix _).eq_of_length all
        have spaces : line.all (·.kind == .space) = true := by
          rw [List.all_eq_true, ← whole]
          exact fun token mem => List.mem_takeWhile_imp (p := fun token : Token => token.kind == .space) mem
        rw [blank] at spaces
        cases spaces
      rw [Bool.false_and, if_neg (by simp), List.takeWhile_append, if_neg stopped]
  | true =>
      have whole := List.takeWhile_eq_self_iff.2 (List.all_eq_true.1 blank)
      rw [List.takeWhile_append_of_pos (List.all_eq_true.1 blank), whole, List.takeWhile_cons]
      cases space : token.kind == .space with
      | false => simp
      | true => simp [columnAfter_append]

namespace Likeness

variable {line line' : List Token} {token token' : Token}

theorem refl (line : List Token) : Likeness line line := ⟨rfl, rfl, rfl⟩

theorem concat (like : Likeness line line') (kind : token'.kind = token.kind)
    (columns : token.kind = .space → ∀ column, columnAfter column token'.body = columnAfter column token.body) :
    Likeness (line ++ [token]) (line' ++ [token']) where
  kinds := by
    have last : (Layout.pieces [token']).map Prod.fst = (Layout.pieces [token]).map Prod.fst := by
      have code : isCode token' = isCode token := by rw [isCode, isCode, kind]
      rw [pieces_cons, pieces_cons, code]
      split
      · rw [List.map_cons, List.map_cons, kind]
      · rfl
    rw [pieces_append, pieces_append, List.map_append, List.map_append, like.kinds, last]
  blank := by rw [isBlank_concat, isBlank_concat, like.blank, kind]
  indentation := by
    rw [indentation_concat, indentation_concat, like.blank, like.indentation, kind]
    split
    · rename_i space
      rw [columns (eq_of_beq (Bool.and_eq_true_iff.1 space).2)]
    · rfl

theorem gap (like : Likeness line line') (kind : token.kind = .space)
    (nowhere : ∀ column, columnAfter column token.body = column) : Likeness line (line' ++ [token]) where
  kinds := by
    have trivia : isCode token = false := by rw [isCode, kind]; rfl
    rw [pieces_append, pieces_eq_nil (List.forall_mem_singleton.2 trivia), List.append_nil, like.kinds]
  blank := by rw [isBlank_concat, like.blank, kind, beq_self_eq_true, Bool.and_true]
  indentation := by
    rw [indentation_concat, like.indentation, nowhere]
    split <;> rfl

/-- Whether it ends makes no difference to a line that is like another one. -/
theorem layoutLines_cons (like : Likeness line line') (broken : Bool) {lines lines' : List Line}
    (rest : ∀ levels, (layoutLines levels lines').map Prod.fst = (layoutLines levels lines).map Prod.fst)
    (levels : List Nat) : (layoutLines levels (⟨line', broken⟩ :: lines')).map Prod.fst =
      (layoutLines levels (⟨line, broken⟩ :: lines)).map Prod.fst := by
  have code : Line.hasCode ⟨line', broken⟩ = Line.hasCode ⟨line, broken⟩ := by
    have same := congrArg List.isEmpty like.kinds
    rw [List.isEmpty_map, List.isEmpty_map] at same
    rw [Line.hasCode, Line.hasCode, any_isCode, any_isCode, same]
  have indented : Line.indentation ⟨line', broken⟩ = Line.indentation ⟨line, broken⟩ := like.indentation
  rw [layoutLines, layoutLines, code, indented]
  split
  · dsimp only
    simp only [List.map_append, rest, like.kinds]
  · split
    · exact rest levels
    · rfl

/-- Lines that go on from lines that are like each other with similar tokens. -/
theorem kinds_linesFrom {tokens tokens' : List Token} (similar : Similar tokens tokens')
    (like : Likeness line line') (depth : Nat) (levels : List Nat) :
    (layoutLines levels (linesFrom depth line' tokens')).map Prod.fst =
      (layoutLines levels (linesFrom depth line tokens)).map Prod.fst := by
  induction similar generalizing line line' depth levels with
  | nil => exact like.layoutLines_cons false (fun _ => rfl) levels
  | @cons token token' tokens tokens' kind columns similar ih =>
      rw [linesFrom, linesFrom, kind]
      split
      · exact like.layoutLines_cons true (ih (refl []) 0) levels
      · exact ih (like.concat kind columns) _ levels
  | @gap space tokens tokens' kind nowhere some similar ih =>
      have trivia : isCode space = false := by rw [isCode, kind]; rfl
      rw [linesFrom, if_neg (fun is => by rw [kind] at is; cases is.2), depthAfter_of_trivia trivia]
      exact ih (like.gap kind nowhere) depth levels

end Likeness

/-- The layout of similar tokens has the same kinds. -/
theorem kinds_lineByLine {tokens tokens' : List Token} (similar : Similar tokens tokens') :
    (lineByLine tokens').map Prod.fst = (lineByLine tokens).map Prod.fst := by
  have empty : tokens'.isEmpty = tokens.isEmpty := by
    cases similar with
    | nil | cons => rfl
    | gap _ _ some => exact (List.isEmpty_eq_false_iff.2 some).symm
  rw [lineByLine, lineByLine, List.map_append, List.map_append,
    Likeness.kinds_linesFrom similar (.refl []) 0 [0], empty]

end StarlarkSyntax.Layout
