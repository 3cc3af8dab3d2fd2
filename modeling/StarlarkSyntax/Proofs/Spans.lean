import StarlarkSyntax.Proofs.Layout.Tiling
import StarlarkSyntax.Proofs.Twin.File
/-!
# Where nodes stand in the text

The nodes of a tree cover the text as its tokens do: each stands from the caret after the text before it to
the caret after its own, and so do its children one after another (`Tree.Fits`). Below the root, nothing
that the grammar passed over stands at the edge of a node (`Tree.Trim`). Both hold of the tree of every
text (`spans_parse`).
-/

set_option autoImplicit false

namespace StarlarkSyntax

/-- Spans that follow one another from a caret to another one. -/
def Span.Contiguous (start : Caret) : List Span → Caret → Prop
  | [], stop => stop = start
  | span :: spans, stop => span.start = start ∧ Contiguous span.stop spans stop

namespace Tree

/-! ## The text before a node -/

mutual

/-- Everything in a tree, each node before its children, with the text before it. -/
def walk (before : List Char) : Tree → List (List Char × Tree)
  | leaf token => [(before, leaf token)]
  | node kind message? span children =>
    (before, node kind message? span children) :: walkAll before children

/-- Everything in several trees that follow one another, with the text before it. -/
def walkAll (before : List Char) : List Tree → List (List Char × Tree)
  | [] => []
  | tree :: trees => walk before tree ++ walkAll (before ++ tree.text) trees

end

mutual

theorem map_snd_walk (before : List Char) (depth : Nat) (tree : Tree) :
    (walk before tree).map Prod.snd = (preorderFrom depth tree).map Prod.snd := by
  cases tree with
  | leaf token => simp [walk]
  | node kind message? span children =>
      rw [walk, preorderFrom_node, List.map_cons, List.map_cons,
        map_snd_walkAll before (depth + 1) children]

theorem map_snd_walkAll (before : List Char) (depth : Nat) (trees : List Tree) :
    (walkAll before trees).map Prod.snd = (preorderOfAll depth trees).map Prod.snd := by
  cases trees with
  | nil => simp [walkAll]
  | cons tree trees =>
      rw [walkAll, preorderOfAll_cons, List.map_append, List.map_append, map_snd_walk before depth tree,
        map_snd_walkAll _ depth trees]

end

/-- The walk comes to the nodes of the tree. -/
theorem nodes_eq_walk (tree : Tree) : tree.nodes = ((walk [] tree).map Prod.snd).filter isNode := by
  rw [map_snd_walk [] 0 tree, nodes, preorder]
  induction preorderFrom 0 tree with
  | nil => rfl
  | cons part parts ih =>
      obtain ⟨depth, part⟩ := part
      rw [List.filterMap_cons, List.map_cons, List.filter_cons, ih]
      cases is : part.isNode <;> simp [is]

/-! ## Spans -/

mutual

/-- A tree that stands between two carets, and everything in it in its place. -/
def Fits (start : Caret) : Tree → Caret → Prop
  | leaf token, stop => token.span.start = start ∧ token.span.stop = stop ∧
      stop = start.advanceOver token.body
  | node _ _ span children, stop => span.start = start ∧ span.stop = stop ∧ FitsAll start children stop

/-- Trees that follow one another between two carets, and everything in them in its place. -/
def FitsAll (start : Caret) : List Tree → Caret → Prop
  | [], stop => stop = start
  | tree :: trees, stop => Fits start tree tree.span.stop ∧ FitsAll tree.span.stop trees stop

end

variable {start middle stop : Caret} {tree : Tree} {trees more : List Tree}

theorem Fits.span (fits : Fits start tree stop) : tree.span.start = start ∧ tree.span.stop = stop := by
  cases tree with
  | leaf token => exact ⟨fits.1, fits.2.1⟩
  | node kind message? span children => exact ⟨fits.1, fits.2.1⟩

theorem FitsAll.append (first : FitsAll start trees middle) (second : FitsAll middle more stop) :
    FitsAll start (trees ++ more) stop := by
  induction trees generalizing start with
  | nil =>
      cases first
      exact second
  | cons tree trees ih => exact ⟨first.1, ih first.2⟩

theorem FitsAll.split (fits : FitsAll start (trees ++ more) stop) :
    ∃ middle, FitsAll start trees middle ∧ FitsAll middle more stop := by
  induction trees generalizing start with
  | nil => exact ⟨start, rfl, fits⟩
  | cons tree trees ih =>
      obtain ⟨middle, first, second⟩ := ih fits.2
      exact ⟨middle, ⟨fits.1, first⟩, second⟩

theorem FitsAll.stop_of_getLast? (fits : FitsAll start trees stop)
    (last : trees.getLast? = some tree) : tree.span.stop = stop := by
  obtain ⟨front, rfl⟩ := List.getLast?_eq_some_iff.1 last
  obtain ⟨middle, -, -, same⟩ := fits.split
  exact same.symm

theorem FitsAll.cons (fits : Fits start tree middle) (rest : FitsAll middle trees stop) :
    FitsAll start (tree :: trees) stop := by
  obtain ⟨-, rfl⟩ := fits.span
  exact ⟨fits, rest⟩

theorem FitsAll.contiguous (fits : FitsAll start trees stop) :
    Span.Contiguous start (trees.map Tree.span) stop := by
  induction trees generalizing start with
  | nil => exact fits
  | cons tree trees ih => exact ⟨fits.1.span.1, ih fits.2⟩

mutual

theorem Fits.stop_eq (tree : Tree) {start stop : Caret} (fits : Fits start tree stop) :
    stop = start.advanceOver tree.text := by
  cases tree with
  | leaf token => simpa [text] using fits.2.2
  | node kind message? span children =>
      rw [text, leaves_node]
      exact FitsAll.stop_eq children fits.2.2

theorem FitsAll.stop_eq (trees : List Tree) {start stop : Caret} (fits : FitsAll start trees stop) :
    stop = start.advanceOver (Token.textOf (leavesOfAll trees)) := by
  cases trees with
  | nil => exact fits
  | cons tree trees =>
      rw [leavesOfAll_cons, Token.textOf_append, Caret.advanceOver_append,
        FitsAll.stop_eq trees fits.2, Fits.stop_eq tree fits.1]
      rfl

end

/-- A node that is put around trees stands where they do. -/
theorem FitsAll.ofChildren (fits : FitsAll start trees stop) (kind : NodeKind)
    (message? : Option String) {caret : Caret} (empty : trees = [] → caret = start) :
    Fits start (.ofChildren kind message? trees caret) stop := by
  have le : start ≤ stop := FitsAll.stop_eq trees fits ▸ Caret.le_advanceOver _ _
  have span : fitSpan trees caret = ⟨start, stop, le⟩ := by
    unfold fitSpan
    cases trees with
    | nil =>
        cases fits
        cases empty rfl
        rfl
    | cons first rest =>
        cases found : (first :: rest).getLast? with
        | none => simp at found
        | some last =>
            have ends := fits.stop_of_getLast? found
            dsimp only [List.head?_cons]
            rw [fits.1.span.1, ends, Span.ofCarets_eq le]
  rw [Tree.ofChildren, span]
  exact ⟨rfl, rfl, fits⟩

mutual

/-- In a tree that stands in its place, every node does. -/
theorem Fits.walk (tree : Tree) {before : List Char} {stop : Caret}
    (fits : Fits (({} : Caret).advanceOver before) tree stop) :
    ∀ part ∈ tree.walk before, part.2.isNode = true →
      part.2.span.start = ({} : Caret).advanceOver part.1 ∧
        part.2.span.stop = ({} : Caret).advanceOver (part.1 ++ part.2.text) ∧
        Span.Contiguous part.2.span.start (part.2.children.map Tree.span) part.2.span.stop := by
  cases tree with
  | leaf token =>
      rintro _ mem node
      cases List.mem_singleton.1 mem
      cases node
  | node kind message? span children =>
      have whole := Fits.stop_eq _ fits
      obtain ⟨begins, ends, inside⟩ := fits
      refine List.forall_mem_cons.2 ⟨fun _ => ⟨begins, ?_, ?_⟩, FitsAll.walkAll children inside⟩
      · rw [Caret.advanceOver_append, ← whole]
        exact ends
      · show Span.Contiguous span.start _ span.stop
        rw [begins, ends]
        exact inside.contiguous

theorem FitsAll.walkAll (trees : List Tree) {before : List Char} {stop : Caret}
    (fits : FitsAll (({} : Caret).advanceOver before) trees stop) :
    ∀ part ∈ Tree.walkAll before trees, part.2.isNode = true →
      part.2.span.start = ({} : Caret).advanceOver part.1 ∧
        part.2.span.stop = ({} : Caret).advanceOver (part.1 ++ part.2.text) ∧
        Span.Contiguous part.2.span.start (part.2.children.map Tree.span) part.2.span.stop := by
  cases trees with
  | nil => nofun
  | cons tree trees =>
      obtain ⟨first, rest⟩ := fits
      rw [Fits.stop_eq tree first, ← Caret.advanceOver_append] at rest
      exact List.forall_mem_append.2 ⟨Fits.walk tree first, FitsAll.walkAll trees rest⟩

end

/-! ## The edges of nodes -/

/-- Did the grammar pass over this: is it trivia, or an error node around an invalid token? -/
def isSkipped : Tree → Bool
  | leaf token => token.kind.isTrivia
  | node kind _ _ children => holdsInvalid kind children

/-- Neither the first nor the last child was passed over. -/
def Edged (tree : Tree) : Prop :=
  (∀ child ∈ tree.children.head?, child.isSkipped = false) ∧
    ∀ child ∈ tree.children.getLast?, child.isSkipped = false

mutual

/-- Nothing that was passed over stands at the edge of a node. -/
def Trim : Tree → Prop
  | leaf _ => True
  | node kind message? span children => (node kind message? span children).Edged ∧ TrimAll children

/-- Nothing that was passed over stands at the edge of a node in several trees. -/
def TrimAll : List Tree → Prop
  | [] => True
  | tree :: trees => Trim tree ∧ TrimAll trees

end

theorem trimAll_append (s t : List Tree) : TrimAll (s ++ t) ↔ TrimAll s ∧ TrimAll t := by
  induction s with
  | nil => simp [TrimAll]
  | cons tree s ih => rw [List.cons_append, TrimAll, ih, TrimAll, and_assoc]

mutual

theorem Trim.walk (tree : Tree) (before : List Char) (trim : tree.Trim) :
    ∀ part ∈ tree.walk before, part.2.isNode = true → part.2.Edged := by
  cases tree with
  | leaf token =>
      rintro _ mem node
      cases List.mem_singleton.1 mem
      cases node
  | node kind message? span children =>
      exact List.forall_mem_cons.2 ⟨fun _ => trim.1, TrimAll.walkAll children before trim.2⟩

theorem TrimAll.walkAll (trees : List Tree) (before : List Char) (trim : TrimAll trees) :
    ∀ part ∈ Tree.walkAll before trees, part.2.isNode = true → part.2.Edged := by
  cases trees with
  | nil => nofun
  | cons tree trees =>
      exact List.forall_mem_append.2 ⟨Trim.walk tree before trim.1, TrimAll.walkAll trees _ trim.2⟩

end

end Tree

/-! ## Trees that were made of shapes -/

section Dressed

open Token (Tiles)
open Supply (Skip Skips)


variable {start stop : Caret} {supply middle after : Supply} {tree : Tree} {skipped trees : List Tree}

theorem Supply.caret_eq (tiles : Tiles start supply.tokens stop) : supply.caret stop = start := by
  obtain ⟨tokens, messages⟩ := supply
  cases tokens with
  | nil => exact tiles
  | cons token tokens => exact tiles.1

/-- A leaf stands where its token does. -/
theorem fits_leaf {token : Token} {tokens : List Token} (tiles : Tiles start (token :: tokens) stop) :
    Tree.Fits start (.leaf token) token.span.stop :=
  ⟨tiles.1, rfl, tiles.2.1⟩

namespace Supply

theorem Skip.fits (skip : Skip supply tree middle) (tiles : Tiles start supply.tokens stop) :
    ∃ caret, Tree.Fits start tree caret ∧ Tiles caret middle.tokens stop := by
  cases skip with
  | trivia => exact ⟨_, fits_leaf tiles, tiles.2.2⟩
  | @invalid token _ messages _ =>
      have alone : Tree.FitsAll start [.leaf token] token.span.stop := ⟨fits_leaf tiles, rfl⟩
      exact ⟨_, alone.ofChildren _ _ nofun, tiles.2.2⟩

theorem Skips.fits (skips : Skips supply skipped middle) (tiles : Tiles start supply.tokens stop) :
    ∃ caret, Tree.FitsAll start skipped caret ∧ Tiles caret middle.tokens stop := by
  induction skips generalizing start with
  | done => exact ⟨start, rfl, tiles⟩
  | more skip _ ih =>
      obtain ⟨next, first, tiles⟩ := skip.fits tiles
      obtain ⟨last, rest, tiles⟩ := ih tiles
      exact ⟨last, .cons first rest, tiles⟩

/-- Nothing is passed over where a token comes that a grammar sees. -/
theorem Skips.eq_nil (skips : Skips supply skipped middle) (ready : supply.Ready) : skipped = [] := by
  cases skips with
  | done => rfl
  | more skip =>
      cases skip with
      | @trivia token _ _ trivia =>
          have significant : token.kind.isSignificant = true := ready token rfl
          simp [Kind.isSignificant, trivia] at significant
      | @invalid token _ _ invalid =>
          have significant : token.kind.isSignificant = true := ready token rfl
          simp [Kind.isSignificant, invalid] at significant

theorem Skips.trim (skips : Skips supply skipped middle) :
    Tree.TrimAll skipped ∧ ∀ tree ∈ skipped, tree.isInvalid = false := by
  induction skips with
  | done => exact ⟨trivial, nofun⟩
  | more skip _ ih =>
      refine ⟨⟨?_, ih.1⟩, List.forall_mem_cons.2 ⟨?_, ih.2⟩⟩
      · cases skip with
        | trivia => trivial
        | @invalid token _ _ invalid =>
            have kept : token.kind.isTrivia = false := by rw [invalid]; rfl
            refine ⟨⟨?_, ?_⟩, trivial, trivial⟩ <;> rintro _ ⟨⟩ <;> exact kept
      · cases skip with
        | @trivia token _ _ trivia =>
            refine beq_eq_false_iff_ne.2 fun invalid => ?_
            rw [invalid] at trivia
            contradiction
        | invalid => rfl

end Supply

mutual

theorem Dressed.fits (shape : Shape) {supply after : Supply} {tree : Tree} {start : Caret}
    (dressed : Dressed stop supply shape tree after) (tiles : Tiles start supply.tokens stop) :
    ∃ caret, Tree.Fits start tree caret ∧ Tiles caret after.tokens stop := by
  cases dressed with
  | token => exact ⟨_, fits_leaf tiles, tiles.2.2⟩
  | node dressed =>
      obtain ⟨caret, fits, rest⟩ := AllDressed.fits _ dressed tiles
      refine ⟨caret, fits.ofChildren _ _ fun none => ?_, rest⟩
      subst none
      cases fits
      exact Supply.caret_eq rest

/-- Trees that were made of shapes stand where their tokens do. -/
theorem AllDressed.fits (shapes : List Shape) {supply after : Supply} {trees : List Tree}
    {start : Caret} (dressed : AllDressed stop supply shapes trees after)
    (tiles : Tiles start supply.tokens stop) :
    ∃ caret, Tree.FitsAll start trees caret ∧ Tiles caret after.tokens stop := by
  cases dressed with
  | nil => exact ⟨start, rfl, tiles⟩
  | cons skips _ dressed rest =>
      obtain ⟨first, before, tiles⟩ := skips.fits tiles
      obtain ⟨second, here, tiles⟩ := Dressed.fits _ dressed tiles
      obtain ⟨third, later, tiles⟩ := AllDressed.fits _ rest tiles
      exact ⟨third, before.append (.cons here later), tiles⟩

end

mutual

theorem Dressed.trim (shape : Shape) {supply after : Supply} {tree : Tree} (ready : supply.Ready)
    (dressed : Dressed stop supply shape tree after) :
    tree.Trim ∧ tree.isSkipped = false ∧ tree.isInvalid = false := by
  cases dressed with
  | @token token _ _ significant =>
      simp only [Kind.isSignificant, Bool.and_eq_true, Bool.not_eq_true', bne_iff_ne] at significant
      exact ⟨trivial, significant.1, beq_eq_false_iff_ne.2 significant.2⟩
  | node dressed =>
      obtain ⟨trim, valid, head, last⟩ := AllDressed.trim _ dressed
      refine ⟨⟨⟨head ready, last⟩, trim⟩, ?_, rfl⟩
      unfold Tree.ofChildren Tree.isSkipped Tree.holdsInvalid
      dsimp only
      split
      · rename_i token
        rw [show (token.kind == .invalid) = false from valid (.leaf token) List.mem_cons_self,
          Bool.and_false]
      · rfl

/-- Trees that were made of shapes have nothing at the edges of nodes that was passed over. -/
theorem AllDressed.trim (shapes : List Shape) {supply after : Supply} {trees : List Tree}
    (dressed : AllDressed stop supply shapes trees after) :
    Tree.TrimAll trees ∧ (∀ tree ∈ trees, tree.isInvalid = false) ∧
      (supply.Ready → ∀ tree ∈ trees.head?, tree.isSkipped = false) ∧
      ∀ tree ∈ trees.getLast?, tree.isSkipped = false := by
  cases dressed with
  | nil => exact ⟨trivial, nofun, nofun, nofun⟩
  | cons skips ready dressed rest =>
      obtain ⟨trim, kept, valid⟩ := Dressed.trim _ ready dressed
      obtain ⟨trims, valids, -, last⟩ := AllDressed.trim _ rest
      refine ⟨(Tree.trimAll_append _ _).2 ⟨skips.trim.1, trim, trims⟩, ?_, ?_, ?_⟩
      · exact List.forall_mem_append.2 ⟨skips.trim.2, List.forall_mem_cons.2 ⟨valid, valids⟩⟩
      · intro here tree first
        rw [skips.eq_nil here] at first
        cases first
        exact kept
      · intro child final
        rename_i more _
        rcases List.eq_nil_or_concat more with rfl | ⟨front, other, rfl⟩
        · rw [List.getLast?_concat] at final
          cases final
          exact kept
        · refine last child ?_
          rw [List.concat_eq_append, ← List.cons_append, ← List.append_assoc, List.getLast?_concat]
            at final
          rw [List.concat_eq_append, List.getLast?_concat]
          exact final

end

end Dressed

/-- The nodes of every tree stand where their text does, one after another, and nothing that the grammar
passed over stands at the edge of a node below the root. -/
theorem spans_parse (text : List Char) :
    let root := (parse text).root
    root.nodes = ((root.walk []).map Prod.snd).filter Tree.isNode ∧
    (∀ part ∈ root.walk [], part.2.isNode = true →
      part.2.span.start = ({} : Caret).advanceOver part.1 ∧
        part.2.span.stop = ({} : Caret).advanceOver (part.1 ++ part.2.text) ∧
        Span.Contiguous part.2.span.start (part.2.children.map Tree.span) part.2.span.stop) ∧
      ∀ part ∈ (root.walk []).tail, part.2.isNode = true → part.2.Edged := by
  intro root
  refine ⟨root.nodes_eq_walk, ?_⟩
  obtain ⟨made, rooted, -⟩ := exists_rooted text
  have tiles := tiles_tokenize text
  change Rooted (tokenize text) made root at rooted
  generalize root = tree at rooted
  obtain ⟨dressed, skips, nothing⟩ := rooted
  have ends : (Assembly.ofLexed (tokenize text)).stop = _ := tiles.getLast?_stop
  rw [← ends] at tiles
  obtain ⟨middle, first, tiles⟩ := AllDressed.fits _ dressed tiles
  obtain ⟨stop, rest, tiles⟩ := skips.fits tiles
  have fits := first.append rest
  constructor
  · refine Tree.Fits.walk _ (fits.ofChildren .file none fun none => ?_)
    rw [nothing] at tiles
    rw [none] at fits
    exact tiles.trans fits
  · refine Tree.TrimAll.walkAll _ _ ((Tree.trimAll_append _ _).2 ⟨?_, skips.trim.1⟩)
    exact (AllDressed.trim _ dressed).1

end StarlarkSyntax
