import StarlarkSyntax.Grammar.Statement
import StarlarkSyntax.Proofs.Grammar.Block
import StarlarkSyntax.Proofs.Progress.Basic
import StarlarkSyntax.Proofs.Twin.Line
/-!
# Two texts that begin with the same lines

The rules for statements do look beyond the end of a line: a block may come after it, or the next branch
of an `if`. So for two texts that begin with the same tokens the border between these and the tails has to
be one that a statement never needs to look across (`Border`): the tokens before it are whole lines whose
indents have their dedents (`Lined`), the rules stand in no more blocks than there are dedents ahead, and
neither tail begins with anything that would continue a statement.

`Guarded` also covers two texts without tails, which may then be any texts at all.
-/

set_option autoImplicit false

namespace StarlarkSyntax

open Layout (Piece)

/-! ## Whole lines -/

/-- The kinds of the tokens of whole lines, of which the first may have begun already. So many dedents
come in them for indents that came before. -/
inductive Lined : Bool → Nat → List Kind → Prop
  | finished : Lined false 0 []
  | broken {inRow : Bool} {owed : Nat} {kinds : List Kind} (lines : Lined false owed kinds) :
      Lined inRow owed (.statementBreak :: kinds)
  | plain {inRow : Bool} {owed : Nat} {kind : Kind} {kinds : List Kind}
      (plain : kind.isLayout = false) (row : Lined true owed kinds) : Lined inRow owed (kind :: kinds)
  | indent {owed : Nat} {kinds : List Kind} (row : Lined true (owed + 1) kinds) :
      Lined false owed (.indent :: kinds)
  | dedent {owed : Nat} {kinds : List Kind} (lines : Lined false owed kinds) :
      Lined false (owed + 1) (.dedent :: kinds)
  | inconsistent {owed : Nat} {kinds : List Kind} (row : Lined true owed kinds) :
      Lined false (owed + 1) (.inconsistentDedent :: .dedent :: kinds)

namespace Lined

variable {inRow : Bool} {owed : Nat} {kind : Kind} {kinds : List Kind}

theorem loosen (lined : Lined inRow owed kinds) : Lined false owed kinds := by
  cases lined with
  | finished => exact .finished
  | broken lines => exact .broken lines
  | plain plain row => exact .plain plain row
  | indent row => exact .indent row
  | dedent lines => exact .dedent lines
  | inconsistent row => exact .inconsistent row

/-- Does a token of this kind only come at the beginning of a line? -/
def begins : Kind → Bool
  | .indent | .dedent | .inconsistentDedent => true
  | _ => false

theorem tighten (lined : Lined inRow owed (kind :: kinds)) (inside : begins kind = false) :
    Lined true owed (kind :: kinds) := by
  cases lined with
  | broken lines => exact .broken lines
  | plain plain row => exact .plain plain row
  | indent | dedent | inconsistent => cases inside

/-- A row that has begun ends. -/
theorem ends (lined : Lined true owed kinds) : .statementBreak ∈ kinds := by
  induction kinds with
  | nil => cases lined
  | cons kind kinds ih =>
      cases lined with
      | broken => exact List.mem_cons_self
      | plain _ row => exact List.mem_cons_of_mem _ (ih row)

/-- A row begins or goes on at any token but a dedent. -/
theorem ends_of_head (lined : Lined inRow owed (kind :: kinds)) (other : kind ≠ .dedent) :
    .statementBreak ∈ kind :: kinds := by
  cases lined with
  | broken => exact List.mem_cons_self
  | plain _ row | indent row => exact List.mem_cons_of_mem _ row.ends
  | dedent => contradiction
  | inconsistent row => exact List.mem_cons_of_mem _ (List.mem_cons_of_mem _ row.ends)

theorem owed_eq_zero (lined : Lined inRow owed []) : owed = 0 := by
  cases lined
  rfl

/-- One more token has been passed. -/
theorem pass (lined : Lined inRow owed (kind :: kinds)) :
    Lined false (Grammar.indentsAfter owed kind) kinds ∧ (kind = .dedent → 0 < owed) := by
  cases lined with
  | broken lines => exact ⟨lines, nofun⟩
  | plain plain row =>
      have same : Grammar.indentsAfter owed kind = owed := by
        unfold Grammar.indentsAfter
        split <;> first | rfl | cases plain
      rw [same]
      exact ⟨row.loosen, fun is => by rw [is] at plain; cases plain⟩
  | indent row => exact ⟨row.loosen, nofun⟩
  | dedent lines => exact ⟨lines, fun _ => Nat.succ_pos _⟩
  | inconsistent row => exact ⟨.dedent row.loosen, nofun⟩

/-- The dedent that is inconsistent comes after the token that says so. -/
theorem dedent_of_inconsistent (lined : Lined inRow owed (.inconsistentDedent :: kinds)) :
    kinds.head? = some .dedent := by
  cases lined with
  | plain plain => cases plain
  | inconsistent => rfl

/-- Tokens of a row have been passed, and its end has not. -/
theorem row {passed kinds : List Kind} (lined : Lined true owed (passed ++ kinds))
    (unbroken : .statementBreak ∉ passed) : Lined true owed kinds := by
  induction passed with
  | nil => exact lined
  | cons kind passed ih =>
      cases lined with
      | broken => exact absurd List.mem_cons_self unbroken
      | plain _ row => exact ih row fun mem => unbroken (List.mem_cons_of_mem _ mem)

/-- Tokens have been passed where a statement may begin, and no end of a line. -/
theorem passRow {passed kinds : List Kind} (lined : Lined false owed (passed ++ kinds))
    (unbroken : .statementBreak ∉ passed)
    (head : ∀ kind ∈ (passed ++ kinds).head?, kind ≠ .dedent ∧ kind ≠ .inconsistentDedent) :
    ∃ left, owed ≤ left ∧ Lined false left kinds := by
  cases passed with
  | nil => exact ⟨owed, Nat.le_refl _, lined⟩
  | cons kind passed =>
      have unbroken' : .statementBreak ∉ passed := fun mem => unbroken (List.mem_cons_of_mem _ mem)
      obtain ⟨notDedent, notInconsistent⟩ := head kind rfl
      rw [List.cons_append] at lined
      generalize more : passed ++ kinds = rest at lined
      cases lined with
      | broken => exact absurd List.mem_cons_self unbroken
      | plain _ row => exact ⟨owed, Nat.le_refl _, ((more ▸ row).row unbroken').loosen⟩
      | indent row => exact ⟨owed + 1, Nat.le_succ _, ((more ▸ row).row unbroken').loosen⟩
      | dedent => contradiction
      | inconsistent => contradiction

end Lined

/-! ## Borders -/

/-- Where in a line the rules stand. -/
inductive Standing where
  /-- Anywhere, perhaps where a line begins, and after no semicolon. -/
  | free
  /-- Before the end of a line that has begun, and after no semicolon. -/
  | inRow
  /-- Before the end of a line that has begun, and if right before it, then after no semicolon. -/
  | goingOn
deriving DecidableEq

namespace Standing

/-- Has the line begun? -/
def begun : Standing → Bool
  | free => false
  | inRow | goingOn => true

/-- May the last statement have ended with a semicolon? -/
def loose : Standing → Bool
  | free | inRow => false
  | goingOn => true

end Standing

/-- The place apart from what a statement leaves behind. -/
def Place.settled (place : Place) : Place :=
  { place with scopes := place.scopes.setAfterSemicolon false, strayIndents := 0 }

theorem Place.blocks_eq {place place' : Place} (same : place.settled = place'.settled) :
    place.blocks = place'.blocks := by
  have blocks := congrArg Place.blocks same
  exact blocks

theorem Place.depth_eq {place place' : Place} (same : place.settled = place'.settled) :
    place.depth = place'.depth := by
  have depth := congrArg Place.depth same
  exact depth

/-- The place after it has been noted whether the last statement ended with a semicolon. -/
def Place.noted (value : Bool) (place : Place) : Place :=
  { place with scopes := place.scopes.setAfterSemicolon value }

/-- The place is the same if there was no semicolon. -/
theorem Place.noted_of_calm {place : Place} (calm : place.scopes.current.afterSemicolon = false)
    (value : Bool) : (place.noted value).noted false = place := by
  obtain ⟨⟨⟨inFunction, inSuite, afterSemicolon⟩, outer⟩, blocks, strayIndents, depth⟩ := place
  change afterSemicolon = false at calm
  subst calm
  rfl

/-- Nothing comes first that would continue a statement. -/
def Apart (tail : List Piece) : Prop :=
  ∀ kind ∈ [Kind.semicolon, .reserved .elifWord, .reserved .elseWord, .indent, .dedent],
    nextKind tail ≠ some kind

namespace Twin

variable {pair : Pair} {standing : Standing} {spare spare' : Nat}
  {start twin middle after : Twin pair} {kind : Kind} {marker marker' : Marker}
  {made made' : List Shape}

/-- The tokens ahead are whole lines, with enough dedents for the blocks that are open and the indents
that opened none, and so many more. -/
structure Border (standing : Standing) (spare : Nat) (twin : Twin pair) : Prop where
  apart : Apart pair.leftTail ∧ Apart pair.rightTail
  lined : ∃ owed, Lined standing.begun owed (twin.ahead.map Prod.fst) ∧
    twin.place.blocks + twin.place.strayIndents + spare ≤ owed
  depth : twin.place.depth = twin.place.blocks
  calm : standing.loose = false ∨ twin.next? = some .statementBreak →
    twin.place.scopes.current.afterSemicolon = false

/-- No text has a tail. -/
def Whole (pair : Pair) : Prop :=
  pair.leftTail = [] ∧ pair.rightTail = []

/-- The texts have no tails, or there is a border before these. -/
def Guarded (standing : Standing) (spare : Nat) (twin : Twin pair) : Prop :=
  Whole pair ∨ Border standing spare twin

theorem Guarded.same (guarded : Guarded standing spare twin) (ahead : after.ahead = twin.ahead)
    (place : after.place = twin.place) : Guarded standing spare after := by
  refine guarded.imp_right fun border => ⟨border.apart, ?_, ?_, ?_⟩
  · rw [ahead, place]
    exact border.lined
  · rw [place]
    exact border.depth
  · unfold next?
    rw [place, ahead]
    exact border.calm

theorem Guarded.free (guarded : Guarded standing spare twin) (calm : standing.loose = false) :
    Guarded .free spare twin := by
  refine guarded.imp_right fun border =>
    ⟨border.apart, ?_, border.depth, fun _ => border.calm (.inl calm)⟩
  obtain ⟨owed, lined, enough⟩ := border.lined
  exact ⟨owed, lined.loosen, enough⟩

/-- There was no semicolon right before the end of a line. -/
theorem Guarded.free_of_break (guarded : Guarded standing spare twin)
    (next : twin.next? = some .statementBreak) : Guarded .free spare twin := by
  refine guarded.imp_right fun border =>
    ⟨border.apart, ?_, border.depth, fun _ => border.calm (.inr next)⟩
  obtain ⟨owed, lined, enough⟩ := border.lined
  exact ⟨owed, lined.loosen, enough⟩

/-- No line has begun where a dedent comes. -/
theorem Guarded.free_of_dedent (guarded : Guarded standing spare twin)
    (next : twin.next? = some .dedent) : Guarded .free spare twin := by
  refine guarded.imp_right fun border => ?_
  obtain ⟨owed, lined, -⟩ := border.lined
  obtain ⟨body, left, ahead⟩ := ahead_of_next? next
  rw [ahead, List.map_cons] at lined
  cases standing with
  | free => exact border
  | inRow | goingOn =>
      cases lined with
      | plain plain => cases plain

theorem Guarded.whole_of_dedent (guarded : Guarded standing spare twin)
    (begun : standing.begun = true) (next : twin.next? = some .dedent) : Whole pair := by
  refine guarded.resolve_right fun border => ?_
  obtain ⟨owed, lined, -⟩ := border.lined
  obtain ⟨body, left, ahead⟩ := ahead_of_next? next
  rw [ahead, begun, List.map_cons] at lined
  cases lined with
  | plain plain => cases plain

/-- A line that has begun ends among the tokens ahead. -/
theorem Guarded.bounded (guarded : Guarded standing spare twin) (begun : standing.begun = true) :
    twin.Bounded := by
  refine guarded.imp_right fun border => ?_
  obtain ⟨owed, lined, -⟩ := border.lined
  rw [begun] at lined
  obtain ⟨piece, mem, is⟩ := List.mem_map.1 lined.ends
  exact ⟨piece, mem, is⟩

/-- A line ends among the tokens ahead unless a dedent comes next. -/
theorem Guarded.bounded_of_next? (guarded : Guarded standing spare twin)
    (next : twin.next? = some kind) (other : kind ≠ .dedent) : twin.Bounded := by
  refine guarded.imp_right fun border => ?_
  obtain ⟨owed, lined, -⟩ := border.lined
  obtain ⟨body, left, ahead⟩ := ahead_of_next? next
  have mem : Kind.statementBreak ∈ twin.ahead.map Prod.fst := by
    rw [ahead, List.map_cons] at lined ⊢
    exact lined.ends_of_head other
  obtain ⟨piece, mem, is⟩ := List.mem_map.1 mem
  exact ⟨piece, mem, is⟩

/-- There are tokens ahead where dedents are owed. -/
theorem Guarded.clear (guarded : Guarded standing spare twin)
    (owes : 0 < twin.place.blocks + spare) : twin.Clear := by
  intro nothing
  rcases guarded with whole | border
  · exact whole
  · obtain ⟨owed, lined, enough⟩ := border.lined
    rw [nothing] at lined
    have := lined.owed_eq_zero
    omega

/-- A token that would continue a statement comes in neither tail. -/
theorem Guarded.tells (guarded : Guarded standing spare twin)
    (mem : kind ∈ [Kind.semicolon, .reserved .elifWord, .reserved .elseWord, .indent, .dedent]) :
    twin.Tells kind := by
  rcases guarded with whole | border
  · exact Clear.tells (fun _ => whole) kind
  · exact fun _ => ⟨border.apart.1 kind mem, border.apart.2 kind mem⟩

/-- A line has begun if the next token is none that begins one. -/
theorem Guarded.inRow (guarded : Guarded .free spare twin) (next : twin.next? = some kind)
    (inside : Lined.begins kind = false) : Guarded .inRow spare twin := by
  refine guarded.imp_right fun border =>
    ⟨border.apart, ?_, border.depth, fun _ => border.calm (.inl rfl)⟩
  obtain ⟨owed, lined, enough⟩ := border.lined
  obtain ⟨body, left, ahead⟩ := ahead_of_next? next
  rw [ahead] at lined ⊢
  exact ⟨owed, lined.tighten inside, enough⟩

/-- One more token has been passed. -/
theorem Guarded.pass {piece : Piece} {left : List Piece} (guarded : Guarded .free spare twin)
    (ahead : twin.ahead = piece :: left) (ahead' : after.ahead = left)
    (place : after.place = twin.place) (owes : piece.1 = .dedent → 0 < spare) :
    Guarded .free (Grammar.indentsAfter spare piece.1) after := by
  refine guarded.imp_right fun border => ⟨border.apart, ?_, ?_, ?_⟩
  · obtain ⟨owed, lined, enough⟩ := border.lined
    rw [ahead, List.map_cons] at lined
    obtain ⟨lined, -⟩ := lined.pass
    rw [ahead', place]
    refine ⟨_, lined, ?_⟩
    unfold Grammar.indentsAfter at *
    split <;> rename_i is <;> try omega
    have := owes is
    omega
  · rw [place]
    exact border.depth
  · rw [place]
    exact fun _ => border.calm (.inl rfl)

theorem Guarded.noted (guarded : Guarded standing spare twin) (begun : standing.begun = true)
    (value : Bool) (goesOn : twin.next? ≠ some .statementBreak) :
    Guarded .goingOn spare (twin.placed (twin.place.noted value)) := by
  refine guarded.imp_right fun border =>
    ⟨border.apart, ?_, border.depth, fun is => absurd (is.resolve_left nofun) goesOn⟩
  have lined := border.lined
  rw [begun] at lined
  exact lined

/-- The rules stand elsewhere, where no more dedents are needed. -/
theorem Guarded.placed {place : Place} (guarded : Guarded standing spare twin)
    (count : place.blocks + place.strayIndents + spare' ≤
      twin.place.blocks + twin.place.strayIndents + spare)
    (depth : twin.place.depth = twin.place.blocks → place.depth = place.blocks)
    (calm : twin.place.scopes.current.afterSemicolon = false →
      place.scopes.current.afterSemicolon = false) : Guarded standing spare' (twin.placed place) := by
  refine guarded.imp_right fun border => ⟨border.apart, ?_, depth border.depth,
    fun still => calm (border.calm still)⟩
  obtain ⟨owed, lined, enough⟩ := border.lined
  exact ⟨owed, lined, Nat.le_trans count enough⟩

/-- If a dedent comes next and needs no indent, it is one more than needed. -/
theorem Guarded.owing (guarded : Guarded .free 0 twin) (next : twin.next? = some .dedent)
    (closed : Whole pair ∨ twin.place.blocks + twin.place.strayIndents = 0) :
    Guarded .free 1 twin := by
  rcases closed with whole | closed
  · exact .inl whole
  refine guarded.imp_right fun border => ⟨border.apart, ?_, border.depth, border.calm⟩
  obtain ⟨owed, lined, -⟩ := border.lined
  obtain ⟨body, left, ahead⟩ := ahead_of_next? next
  have some := (ahead ▸ lined).pass.2 rfl
  exact ⟨owed, lined, by omega⟩

theorem Guarded.less (guarded : Guarded standing spare twin) (le : spare' ≤ spare) :
    Guarded standing spare' twin := by
  rw [← placed_place twin]
  exact guarded.placed (Nat.add_le_add_left le _) id id

/-- It has been noted that there was no semicolon. -/
theorem Guarded.calmed (guarded : Guarded standing spare twin) :
    Guarded (if standing.begun then .inRow else .free) spare
      (twin.placed (twin.place.noted false)) := by
  refine guarded.imp_right fun border => ⟨border.apart, ?_, border.depth, fun _ => ?_⟩
  · cases standing <;> exact border.lined
  · rfl

/-- Something has been passed in a line that has begun. -/
theorem Guarded.grown {passed : Bool} {fine : List Shape → Prop} (guarded : Guarded .inRow spare twin)
    (grown : Grown twin passed fine after) (place : after.place = twin.place) :
    Guarded .inRow spare after := by
  refine guarded.imp_right fun border => ⟨border.apart, ?_, ?_, ?_⟩
  · obtain ⟨made, since, intact⟩ := grown
    obtain ⟨owed, lined, enough⟩ := border.lined
    rw [since.ahead, List.map_append] at lined
    rw [place]
    refine ⟨owed, lined.row fun mem => ?_, enough⟩
    obtain ⟨piece, mem, is⟩ := List.mem_map.1 mem
    exact intact.unbroken piece mem is
  · rw [place]
    exact border.depth
  · rw [place]
    exact fun _ => border.calm (.inl rfl)

/-- Something has been passed where a statement may begin, other than at a dedent. -/
theorem Guarded.grownFree {passed : Bool} {fine : List Shape → Prop}
    (guarded : Guarded .free spare twin)
    (tame : Whole pair ∨ twin.next? ≠ some .dedent ∧ twin.next? ≠ some .inconsistentDedent)
    (grown : Grown twin passed fine after) (place : after.place = twin.place) :
    Guarded .free spare after := by
  rcases guarded with whole | border
  · exact .inl whole
  rcases tame with whole | tame
  · exact .inl whole
  refine .inr ⟨border.apart, ?_, ?_, ?_⟩
  · obtain ⟨made, since, intact⟩ := grown
    obtain ⟨owed, lined, enough⟩ := border.lined
    unfold next? at tame
    rw [since.ahead] at lined tame
    rw [List.map_append] at lined
    obtain ⟨left, le, lined⟩ := lined.passRow
      (fun mem => by
        obtain ⟨piece, mem, is⟩ := List.mem_map.1 mem
        exact intact.unbroken piece mem is)
      (fun kind mem => by
        rw [← List.map_append, List.head?_map] at mem
        have is : nextKind (Shape.leavesAll made ++ after.ahead) = some kind := mem
        rw [is] at tame
        exact ⟨fun same => tame.1 (congrArg some same), fun same => tame.2 (congrArg some same)⟩)
    rw [place]
    exact ⟨left, lined, by omega⟩
  · rw [place]
    exact border.depth
  · rw [place]
    exact fun _ => border.calm (.inl rfl)

end Twin

/-! ## What statements add -/

namespace Shape

variable {form form' : Language Shape} {place place' place'' : Place} {rest : List Piece}
  {made made' : List Shape}

/-- If no indent is stray and there is no message in what was made, then it is well made and a word of a
language, its blocks end where they should if some tokens come next, and no indent is stray afterwards. -/
def Spells (form : Language Shape) (place place' : Place) (rest : List Piece) (made : List Shape) : Prop :=
  place.strayIndents = 0 → allClean made = true →
    AllBound made ∧ made ∈ form ∧ AllShut rest made ∧ place'.strayIndents = 0

theorem spells_nil (place : Place) (rest : List Piece) : Spells 1 place place rest [] :=
  fun settled _ => ⟨trivial, rfl, trivial, settled⟩

theorem Spells.append (first : Spells form place place' (leavesAll made' ++ rest) made)
    (second : Spells form' place' place'' rest made') :
    Spells (form * form') place place'' rest (made ++ made') := by
  intro settled clean
  rw [allClean_append, Bool.and_eq_true] at clean
  obtain ⟨bound, mem, shut, settled⟩ := first settled clean.1
  obtain ⟨bound', mem', shut', settled⟩ := second settled clean.2
  exact ⟨(allBound_append _ _).2 ⟨bound, bound'⟩, Language.append_mem_mul mem mem', shut.append shut', settled⟩

theorem Spells.mono (spells : Spells form place place' rest made) (le : form ≤ form') :
    Spells form' place place' rest made := fun settled clean =>
  (spells settled clean).imp_right fun ⟨mem, settled⟩ => ⟨le mem, settled⟩

theorem Spells.node (spells : Spells form place place' rest made) {kind : NodeKind}
    (wellMade : ∀ made ∈ form, (Shape.node kind none made).WellMade)
    (other : ∀ made ∈ form, (Shape.node kind none made).isBlock = false) :
    Spells (Form.nodeOf kind form) place place' rest [.node kind none made] := by
  intro settled clean
  have clean : allClean made = true := by simpa using clean
  obtain ⟨bound, mem, shut, settled⟩ := spells settled clean
  exact ⟨⟨⟨wellMade made mem, bound⟩, trivial⟩, ⟨made, mem, rfl⟩, shut.node (other made mem), settled⟩

/-- A block that nothing comes after. -/
theorem Spells.block (spells : Spells Form.block place place' [] made) :
    Spells (Form.nodeOf .statementList Form.block) place place' [] [.node .statementList none made] := by
  intro settled clean
  have clean : allClean made = true := by simpa using clean
  obtain ⟨bound, mem, shut, settled⟩ := spells settled clean
  exact ⟨⟨⟨⟨.inl mem, trivial, trivial⟩, bound⟩, trivial⟩, ⟨made, mem, rfl⟩,
    ⟨shut, fun _ => .inr rfl, trivial⟩, settled⟩

/-- A block and its dedent. -/
theorem Spells.blockDedent {body : List Char}
    (spells : Spells Form.block place place' ((.dedent, body) :: rest) made) :
    Spells (Form.nodeOf .statementList Form.block * Form.token .dedent) place place' rest
      [.node .statementList none made, .token (.dedent, body)] := by
  intro settled clean
  have clean : allClean made = true := by simpa using clean
  obtain ⟨bound, mem, shut, settled⟩ := spells settled clean
  refine ⟨⟨⟨⟨.inl mem, trivial, trivial⟩, bound⟩, trivial, trivial⟩, ?_,
    ⟨shut, fun _ => .inl ⟨body, [], rfl⟩, ?_⟩, settled⟩
  · exact Language.append_mem_mul (show _ ∈ Form.nodeOf .statementList Form.block from ⟨made, mem, rfl⟩)
      (Form.token_mem .dedent body)
  · exact allShut_token _

/-- A message is in what was made. -/
theorem spells_of_unclean (unclean : allClean made = false) : Spells form place place' rest made :=
  fun _ clean => absurd (clean.symm.trans unclean) Bool.noConfusion

theorem spells_fault (message : String) : Spells form place place' rest [.node .error (some message) made] :=
  spells_of_unclean rfl

theorem Intact.spells {passed : Bool} (intact : Intact passed (· ∈ form) made)
    (flat : form ≤ Form.lettered .flat) (same : place' = place) : Spells form place place' rest made := by
  intro settled clean
  obtain ⟨bound, mem⟩ := intact.bound clean
  exact ⟨bound, mem, allShut_of_flat bound (flat mem), same ▸ settled⟩

end Shape

namespace Twin

open Shape

variable {pair : Pair} {form form' : Language Shape} {standing standing' : Standing} {spare spare' : Nat}
  {start twin middle after : Twin pair} {marker marker' : Marker}

/-- A word of a language was added since some twin, and the rules stand where they stood then, apart from
what a statement leaves behind. -/
structure Gains (start : Twin pair) (form : Language Shape) (standing : Standing) (spare : Nat)
    (after : Twin pair) : Prop where
  made : ∃ made, Since start made after ∧ Spells form start.place after.place after.ahead made
  stays : after.place.settled = start.place.settled
  guarded : Guarded standing spare after

/-- A word of a language stands in a frame that was opened since some twin. -/
structure Frames (start : Twin pair) (marker marker' : Marker) (form : Language Shape) (standing : Standing)
    (spare : Nat) (after : Twin pair) : Prop where
  made : ∃ made, Begun start marker marker' made after ∧ Spells form start.place after.place after.ahead made
  stays : after.place.settled = start.place.settled
  guarded : Guarded standing spare after

theorem Gains.refl (guarded : Guarded standing spare twin) : Gains twin 1 standing spare twin :=
  ⟨⟨[], .refl twin, spells_nil _ _⟩, rfl, guarded⟩

theorem Gains.trans (first : Gains start form standing spare middle)
    (second : Gains middle form' standing' spare' after) : Gains start (form * form') standing' spare' after := by
  obtain ⟨made, since, spells⟩ := first.made
  obtain ⟨made', since', spells'⟩ := second.made
  rw [since'.ahead] at spells
  exact ⟨⟨_, since.trans since', spells.append spells'⟩, second.stays.trans first.stays, second.guarded⟩

theorem Gains.mono (gains : Gains start form standing spare after) (le : form ≤ form') :
    Gains start form' standing spare after := by
  obtain ⟨made, since, spells⟩ := gains.made
  exact ⟨⟨made, since, spells.mono le⟩, gains.stays, gains.guarded⟩

/-- After a message anything may follow. -/
theorem Gains.spoilt (first : Gains start 0 standing spare middle)
    (second : Gains middle form standing' spare' after) : Gains start form' standing' spare' after := by
  refine (first.trans second).mono ?_
  rw [zero_mul]
  exact fun _ => False.elim

/-- After a message anything may be made. -/
theorem Gains.spoiltBy {made : List Shape} (first : Gains start 0 standing spare middle)
    (since : Since middle made after) (ahead : after.ahead = middle.ahead) (place : after.place = middle.place) :
    Gains start form standing spare after := by
  obtain ⟨made', since', spells⟩ := first.made
  refine ⟨⟨_, since'.trans since, fun settled clean => ?_⟩, ?_, first.guarded.same ahead place⟩
  · rw [allClean_append, Bool.and_eq_true] at clean
    exact (spells settled clean.1).2.1.elim
  · rw [place]
    exact first.stays

/-- More statements were added. -/
theorem Gains.more (first : Gains start Form.statements standing spare middle)
    (second : Gains middle Form.statements standing' spare' after) :
    Gains start Form.statements standing' spare' after :=
  (first.trans second).mono (kstar_mul_kstar _).le

/-- Where an indent is stray, anything may follow. -/
theorem Gains.stray (gains : Gains start form standing spare after) (stray : 0 < start.place.strayIndents) :
    Gains start form' standing spare after := by
  obtain ⟨made, since, -⟩ := gains.made
  exact ⟨⟨made, since, fun settled => absurd settled (Nat.ne_of_gt stray)⟩, gains.stays, gains.guarded⟩

/-- Where the rules stand has changed, but not for good. -/
theorem Gains.moved {place : Place} (gains : Gains start form standing spare twin)
    (stays : place.settled = twin.place.settled)
    (settles : twin.place.strayIndents = 0 → place.strayIndents = 0)
    (guarded : Guarded standing' spare' (twin.placed place)) :
    Gains start form standing' spare' (twin.placed place) := by
  obtain ⟨made, since, spells⟩ := gains.made
  refine ⟨⟨made, since.move place, fun settled clean => ?_⟩, stays.trans gains.stays, guarded⟩
  exact (spells settled clean).imp_right (And.imp_right (And.imp_right settles))

theorem Gains.guard (gains : Gains start form standing spare after) (guarded : Guarded standing' spare' after) :
    Gains start form standing' spare' after :=
  { gains with guarded }

theorem Frames.gain (first : Frames start marker marker' form standing spare middle)
    (second : Gains middle form' standing' spare' after) :
    Frames start marker marker' (form * form') standing' spare' after := by
  obtain ⟨made, within, spells⟩ := first.made
  obtain ⟨made', since, spells'⟩ := second.made
  rw [since.ahead] at spells
  exact ⟨⟨_, within.since since, spells.append spells'⟩, second.stays.trans first.stays, second.guarded⟩

/-- The first thing that stands in the frame. -/
theorem Frames.first (frames : Frames start marker marker' 1 standing spare middle)
    (gains : Gains middle form standing' spare' after) :
    Frames start marker marker' form standing' spare' after := by
  have both := frames.gain gains
  rwa [one_mul] at both

theorem Gains.length_le (gains : Gains start form standing spare after) :
    after.ahead.length ≤ start.ahead.length := by
  obtain ⟨made, since, -⟩ := gains.made
  rw [since.ahead, List.length_append]
  exact Nat.le_add_left _ _

theorem Frames.guard (frames : Frames start marker marker' form standing spare after)
    (guarded : Guarded standing' spare' after) : Frames start marker marker' form standing' spare' after :=
  { frames with guarded }

theorem Frames.free (frames : Frames start marker marker' form standing spare after)
    (calm : standing.loose = false) : Frames start marker marker' form .free spare after :=
  frames.guard (frames.guarded.free calm)

theorem Grown.gains {passed : Bool} (grown : Grown start passed (· ∈ form) after)
    (flat : form ≤ Form.lettered .flat) (place : after.place = start.place) (guarded : Guarded standing spare after) :
    Gains start form standing spare after := by
  obtain ⟨made, since, intact⟩ := grown
  exact ⟨⟨made, since, intact.spells flat place⟩, congrArg Place.settled place, guarded⟩

end Twin

namespace Grammar

open Twin Shape

variable {pair : Pair} {α β : Type} {form : Language Shape} {standing : Standing} {spare : Nat}
  {start twin : Twin pair} {marker marker' : Marker}

/-- A rule within a line that has begun, and what comes after it. -/
theorem abreast_row {rule : ParseM α} {next next' : α → ParseM β} {post : β → β → Twin pair → Prop}
    (guarded : Guarded .inRow spare twin) (flat : form ≤ Form.lettered .flat)
    (agree : Agree rule rule twin fun answer answer' after =>
      answer = answer' ∧ Grown twin false (· ∈ form) after)
    (holds : ∀ answer after, Gains twin form .inRow spare after → after.place = twin.place →
      Abreast (next answer) (next' answer) after post) :
    Abreast (rule >>= next) (rule >>= next') twin post := by
  refine .bind ((agree (guarded.bounded rfl)).mono ?_)
  rintro answer _ after ⟨-, place, rfl, grown⟩
  exact holds answer after (grown.gains flat place (guarded.grown grown place)) place

theorem abreast_open {post : Marker → Marker → Twin pair → Prop}
    (guarded : Guarded standing spare twin)
    (holds : ∀ marker marker' after, Frames twin marker marker' 1 standing spare after →
      after.ahead = twin.ahead → after.place = twin.place → post marker marker' after) :
    Abreast mark mark twin post :=
  abreast_mark fun marker marker' after within here place => holds marker marker' after
    ⟨⟨[], within, place ▸ spells_nil _ _⟩, congrArg Place.settled place, guarded.same here place⟩ here place

/-- What stands in the frame is put into an error node. -/
theorem abreast_blame {message : String} {post : Unit → Unit → Twin pair → Prop}
    (frames : Frames start marker marker' form standing spare twin)
    (holds : ∀ after, Gains start 0 standing spare after → after.ahead = twin.ahead →
      after.place = twin.place → post () () after) :
    Abreast (fault marker message) (fault marker' message) twin post := by
  obtain ⟨made, within, -⟩ := frames.made
  refine abreast_fault within fun after since here place =>
    holds after ⟨⟨_, since, spells_fault message⟩, ?_, frames.guarded.same here place⟩ here place
  rw [place]
  exact frames.stays

/-- A node is made of what stands in the frame. -/
theorem abreast_close {kind : NodeKind} {post : Unit → Unit → Twin pair → Prop}
    (frames : Frames start marker marker' form standing spare twin)
    (wellMade : ∀ made ∈ form, (Shape.node kind none made).WellMade)
    (other : ∀ made ∈ form, (Shape.node kind none made).isBlock = false)
    (holds : ∀ after, Gains start (Form.nodeOf kind form) standing spare after →
      after.ahead = twin.ahead → after.place = twin.place → post () () after) :
    Abreast (done marker kind) (done marker' kind) twin post := by
  obtain ⟨made, within, spells⟩ := frames.made
  refine abreast_done within fun after since here place =>
    holds after ⟨⟨_, since, ?_⟩, ?_, frames.guarded.same here place⟩ here place
  · rw [place, here]
    exact spells.node wellMade other
  · rw [place]
    exact frames.stays

/-- Everything is as it was before the mark. -/
theorem abreast_return {post : Unit → Unit → Twin pair → Prop} {standing' : Standing} {spare' : Nat}
    (frames : Frames start marker marker' form standing spare twin) (place : twin.place = start.place)
    (guarded : Guarded standing' spare' start)
    (holds : ∀ after, Gains start 1 standing' spare' after → after.ahead = start.ahead →
      after.place = start.place → post () () after) :
    Abreast (rollback marker) (rollback marker') twin post := by
  obtain ⟨made, within, -⟩ := frames.made
  refine abreast_rollback within fun after since here place' => ?_
  have same := place'.trans place
  exact holds after ⟨⟨[], since, same ▸ spells_nil _ _⟩, congrArg Place.settled same, guarded.same here same⟩
    here same

theorem abreast_report {message : String} {post : Unit → Unit → Twin pair → Prop}
    (guarded : Guarded standing spare twin)
    (holds : ∀ after, Gains twin 0 standing spare after → after.ahead = twin.ahead →
      after.place = twin.place → post () () after) :
    Abreast (missing message) (missing message) twin post :=
  abreast_missing fun after since here place => holds after
    ⟨⟨_, since, spells_fault message⟩, congrArg Place.settled place, guarded.same here place⟩ here place

end Grammar

/-! ## Tokens that are passed -/

namespace Sees

variable {lexed : Lexed} {draft : Draft} {held : List Held} {builder : Builder}

/-- The links of a builder that stands for a draft are in order. -/
theorem since (sees : Sees lexed draft held builder) : builder.Since builder := by
  obtain ⟨plan, stands, follows⟩ := sees
  obtain ⟨next, describes⟩ := stands.describes
  have linking := describes.linking
  exact {
    tokens := rfl
    significant := rfl
    messages := rfl
    depth := rfl
    inside := stands.reads.inside
    size := Nat.le_refl _
    events := fun _ _ => rfl
    links := ⟨[], rfl, by simp⟩
    forward := fun _ _ wraps => linking.forward _ _ ((linking.recorded _ _).2 wraps)
    recorded := fun _ _ wraps => (linking.recorded _ _).2 wraps
    sorted := linking.sorted
    bounded := fun _ mem => describes.link_lt follows.ordered mem
    older := fun _ mem => describes.link_lt follows.ordered mem }

end Sees

namespace Stage

variable {lexed : Lexed} (stage : Stage lexed)

theorem since : stage.parser.Since stage.place.depth stage.parser.builder.cursor stage.parser :=
  ⟨stage.sees.since, rfl, rfl, rfl, Nat.le_refl _⟩

/-- As many tokens are left as there are after the cursor. -/
theorem length_rest : stage.rest.length + stage.parser.builder.cursor =
    (lexed.tokens.filter (·.kind.isSignificant)).length := by
  obtain ⟨plan, stands, -⟩ := stage.sees
  have inside : stage.parser.builder.cursor ≤ stage.parser.builder.significant.size :=
    stands.reads.inside
  have size : stage.parser.builder.significant.size = _ := congrArg Array.size stands.reads.significant
  rw [rest, List.length_map, stands.reads.rest, List.length_drop, Array.length_toList]
  rw [← List.size_toArray, ← size]
  exact Nat.sub_add_cancel inside

end Stage

namespace Grammar

open Twin

variable {pair : Pair} {α : Type} {twin : Twin pair}

/-- Fewer tokens are ahead after a rule that passes one. -/
theorem Abreast.shorter {rule rule' : ParseM α} {post : α → α → Twin pair → Prop}
    (abreast : Abreast rule rule' twin post) (ends : Ends rule twin.left.parser fun _ next =>
      twin.left.parser.Since twin.place.depth (twin.left.parser.builder.cursor + 1) next) :
    Abreast rule rule' twin fun answer answer' after =>
      post answer answer' after ∧ after.ahead.length < twin.ahead.length := by
  intro answer parser ran
  obtain ⟨answer', after, rfl, ran', holds⟩ := abreast answer parser ran
  obtain ⟨_, _, ranLeft, later⟩ := ends
  cases ranLeft.symm.trans ran
  refine ⟨answer', after, rfl, ran', holds, ?_⟩
  have before := twin.left.length_rest
  have now := after.left.length_rest
  have reached := later.reached
  rw [twin.leftRest, List.length_append] at before
  rw [after.leftRest, List.length_append] at now
  omega

end Grammar
end StarlarkSyntax
