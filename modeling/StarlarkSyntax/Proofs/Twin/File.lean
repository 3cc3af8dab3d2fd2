import StarlarkSyntax.Proofs.Grammar.Whole
import StarlarkSyntax.Proofs.Twin.Statement
/-!
# Files side by side

The statements of a file are read until there are no tokens left, so in texts without tails all tokens
are put into the node of the file.
-/

set_option autoImplicit false

namespace StarlarkSyntax.Grammar

open Twin Shape

variable {pair : Pair} {twin : Twin pair}

/-- The statements of a file. -/
def statements : ParseM Unit :=
  repeatWhile do
    if ← atEnd then pure false
    else
      statement
      pure true

theorem file_eq : file = (do
    let marker ← mark
    statements
    done marker .file) := rfl

/-! ## Texts without tails -/

theorem abreast_statements (whole : Whole pair) (top : twin.place.depth = 0)
    (outside : twin.place.blocks = 0) :
    Abreast statements statements twin fun _ _ after =>
      ∃ standing, Gains twin Form.statements standing 0 after ∧ after.ahead = [] := by
  refine abreast_repeatWhile (fun middle => ∃ standing, Gains twin Form.statements standing 0 middle)
    (fun after => ∃ standing, Gains twin Form.statements standing 0 after ∧ after.ahead = []) ?_
    ⟨.free, (Gains.refl (.inl whole)).mono one_le_kstar⟩
  rintro middle ⟨standing, gains⟩
  have clear : middle.Clear := fun _ => whole
  have deep : middle.place.depth = 0 := (Place.depth_eq gains.stays).trans top
  have blocks : middle.place.blocks = 0 := (Place.blocks_eq gains.stays).trans outside
  refine .bind (abreast_atEnd clear ?_)
  cases ahead : middle.ahead with
  | nil => exact abreast_pure ⟨rfl, standing, gains, ahead⟩
  | cons piece left =>
      have next : middle.next? = some piece.1 := by rw [next?, ahead]; rfl
      refine .bind (((abreast_statementIn (closes_blockFor Builder.maxDepth (Nat.le_add_right _ _))
        gains.guarded (.inl whole) deep).shorter
        (ends_of_steps (steps_statement 0) deep clear next fun _ => .inr blocks)).mono ?_)
      rintro _ _ after ⟨⟨standing, more⟩, shorter⟩
      exact abreast_pure ⟨rfl, ⟨standing, gains.more more⟩, ahead ▸ shorter⟩

/-- A whole text is read into the node of a file, and no token is left. If there is no message in the node,
then everything in it is well made, and its blocks end where they should. -/
theorem abreast_file (whole : Whole pair) (top : twin.place.depth = 0) (outside : twin.place.blocks = 0)
    (settled : twin.place.strayIndents = 0) :
    Abreast file file twin fun _ _ after => ∃ made, Since twin [.node .file none made] after ∧
      (allClean made = true → Bound (.node .file none made) ∧ AllShut [] made) ∧ after.ahead = [] := by
  have guarded : Guarded .free 0 twin := .inl whole
  rw [file_eq]
  refine .bind (abreast_open guarded fun marker marker' first frames _ place => ?_)
  refine .bind ((abreast_statements whole (by rw [place, top]) (by rw [place, outside])).mono ?_)
  rintro _ _ last ⟨standing, gains, nothing⟩
  obtain ⟨made, within, spells⟩ := (frames.first gains).made
  refine abreast_done within fun after since here _ => ⟨made, since, fun clean => ?_, ?_⟩
  · rw [nothing] at spells
    obtain ⟨bound, statements, shut, -⟩ := spells settled clean
    exact ⟨⟨⟨statements, trivial, trivial⟩, bound⟩, shut⟩
  · rw [here, nothing]

/-- Every text is read into the node of a file, in which everything is well made and all blocks end where they
should if there is no message. -/
theorem reaches_file (lexed : Lexed) : Reaches file (.initial lexed) fun _ after =>
    ∃ made, Stage.Adds (.initial lexed) [.node .file none made]
      (after.placed (Stage.initial lexed).place) ∧
        (allClean made = true → Bound (.node .file none made) ∧ AllShut [] made) ∧ after.rest = [] := by
  have self : (Stage.initial lexed).parser.Since 0 0 (Stage.initial lexed).parser :=
    (Stage.initial lexed).since
  obtain ⟨_, parser, ran, -⟩ := ends_file self rfl
  have twice : Abreast file file (Twin.ofStage (.initial lexed)) _ := abreast_file ⟨rfl, rfl⟩ rfl rfl rfl
  obtain ⟨_, after, rfl, -, made, since, bound, nothing⟩ := twice _ _ ran
  exact ⟨_, after.left, ran, made, since.left, bound, by rw [after.leftRest, nothing]; rfl⟩

end StarlarkSyntax.Grammar

namespace StarlarkSyntax

/-- The tree of every text is made of shapes that are well made, and whose blocks end where they should, if
there is no message in them. -/
theorem exists_rooted (text : List Char) : ∃ made, Rooted (tokenize text) made (parse text).root ∧
    (Shape.allClean made = true → Shape.Bound (.node .file none made) ∧ Shape.AllShut [] made) := by
  obtain ⟨_, after, ran, made, adds, holds, left⟩ := Grammar.reaches_file (tokenize text)
  have tree := Stage.rooted adds left
  rw [parse_of_file ran]
  exact ⟨made, tree, holds⟩

/-- The tree of a text without errors has the shape that was made. -/
theorem exists_made_of_parse {text : List Char} (fine : (parse text).hasErrors = false) :
    ∃ made, (parse text).root.shape = [.node .file none made] ∧ Shape.Bound (.node .file none made) ∧
      Shape.AllShut [] made := by
  obtain ⟨made, rooted, holds⟩ := exists_rooted text
  have none : (parse text).root.errors = [] := by simpa [Parse.hasErrors, Parse.errors] using fine
  have clean := Tree.clean_of_errors none
  generalize (parse text).root = root at rooted clean
  obtain ⟨dressed, skips, -⟩ := rooted
  rename_i trees skipped _ _
  have inside : Shape.allClean (Tree.shapes (trees ++ skipped)) = true := by
    simpa [Tree.ofChildren, Tree.shape] using clean
  have inside' := inside
  rw [Tree.shapes_append, Shape.allClean_append, Bool.and_eq_true] at inside
  have shapes : Tree.shapes (trees ++ skipped) = made := by
    rw [Tree.shapes_append, dressed.shapes_eq inside.1, skips.shapes_eq_nil inside.2, List.append_nil]
  rw [shapes] at inside'
  rw [Tree.ofChildren, Tree.shape, shapes]
  exact ⟨made, rfl, holds inside'⟩

/-- The shape of a text without errors is well made, and everything in it. -/
theorem allBound_of_parse {text : List Char} (fine : (parse text).hasErrors = false) :
    Shape.AllBound (parse text).root.shape := by
  obtain ⟨made, is, bound, -⟩ := exists_made_of_parse fine
  rw [is]
  exact ⟨bound, trivial⟩

/-- All blocks of a text without errors end where they should. -/
theorem allShut_of_parse {text : List Char} (fine : (parse text).hasErrors = false) :
    Shape.AllShut [] (parse text).root.shape := by
  obtain ⟨made, is, -, shut⟩ := exists_made_of_parse fine
  rw [is]
  exact Shape.AllShut.node shut rfl

end StarlarkSyntax
