import StarlarkSyntax.Proofs.Builder.Put
/-!
# What the builder makes of a shape

The trees that come of a shape are said without assemblies here. A tree has the nodes and the tokens of
its shape, and the tokens that the grammar passed over stand right before the trees of the shapes that
come after them (`Dressed`, `AllDressed`). So no node but the root begins or ends with one of these.
-/

set_option autoImplicit false

namespace StarlarkSyntax

open Layout (Piece)

/-- Tokens that are in no tree yet, and what is said about the invalid ones among them. -/
structure Supply where
  tokens : List Token
  messages : List String

namespace Supply

/-- Is the next token, if there is one, none that a grammar passes over? -/
def Ready (supply : Supply) : Prop :=
  ∀ token ∈ supply.tokens.head?, token.kind.isSignificant = true

/-- Where the next token starts, or where the text stops. -/
def caret (stop : Caret) (supply : Supply) : Caret :=
  match supply.tokens with
  | token :: _ => token.span.start
  | [] => stop

/-- What a grammar sees. -/
def seen (supply : Supply) : List Piece :=
  (supply.tokens.filter (·.kind.isSignificant)).map Token.piece

/-- A token is passed over. -/
inductive Skip : Supply → Tree → Supply → Prop
  | trivia {token : Token} {tokens : List Token} {messages : List String}
      (trivia : token.kind.isTrivia = true) :
      Skip ⟨token :: tokens, messages⟩ (.leaf token) ⟨tokens, messages⟩
  | invalid {token : Token} {tokens : List Token} {messages : List String}
      (invalid : token.kind = .invalid) :
      Skip ⟨token :: tokens, messages⟩
        (.ofChildren .error (some (messages.headD "invalid token")) [.leaf token] token.span.start)
        ⟨tokens, messages.tail⟩

/-- Several tokens are passed over. -/
inductive Skips : Supply → List Tree → Supply → Prop
  | done {supply : Supply} : Skips supply [] supply
  | more {supply middle after : Supply} {tree : Tree} {trees : List Tree} (skip : Skip supply tree middle)
      (skips : Skips middle trees after) : Skips supply (tree :: trees) after

end Supply

open Supply (Skip Skips)

mutual

/-- A tree is made of a shape from the next tokens on. -/
inductive Dressed (stop : Caret) : Supply → Shape → Tree → Supply → Prop
  | token {token : Token} {tokens : List Token} {messages : List String}
      (significant : token.kind.isSignificant = true) :
      Dressed stop ⟨token :: tokens, messages⟩ (.token token.piece) (.leaf token) ⟨tokens, messages⟩
  | node {supply after : Supply} {kind : NodeKind} {message? : Option String} {children : List Shape}
      {trees : List Tree} (dressed : AllDressed stop supply children trees after) :
      Dressed stop supply (.node kind message? children)
        (.ofChildren kind message? trees (after.caret stop)) after

/-- Trees are made of several shapes, and the tokens that are passed over stand before them. -/
inductive AllDressed (stop : Caret) : Supply → List Shape → List Tree → Supply → Prop
  | nil {supply : Supply} : AllDressed stop supply [] [] supply
  | cons {supply middle next after : Supply} {shape : Shape} {shapes : List Shape}
      {skipped trees : List Tree} {tree : Tree} (skips : Skips supply skipped middle)
      (ready : middle.Ready) (dressed : Dressed stop middle shape tree next)
      (rest : AllDressed stop next shapes trees after) :
      AllDressed stop supply (shape :: shapes) (skipped ++ tree :: trees) after

end

namespace Supply

variable {supply middle after : Supply} {skipped trees : List Tree} {tree : Tree}

theorem Skip.seen (skip : Skip supply tree middle) : middle.seen = supply.seen := by
  cases skip with
  | trivia trivia => simp [Supply.seen, Kind.isSignificant, trivia]
  | invalid invalid => simp [Supply.seen, Kind.isSignificant, invalid]

theorem Skips.seen (skips : Skips supply skipped after) : after.seen = supply.seen := by
  induction skips with
  | done => rfl
  | more skip _ ih => exact ih.trans skip.seen

/-- All tokens before the next one that a grammar sees can be passed over. -/
theorem exists_skips (supply : Supply) :
    ∃ skipped after, Skips supply skipped after ∧ after.Ready := by
  obtain ⟨tokens, messages⟩ := supply
  induction tokens generalizing messages with
  | nil => exact ⟨[], _, .done, nofun⟩
  | cons token tokens ih =>
      by_cases significant : token.kind.isSignificant = true
      · refine ⟨[], _, .done, ?_⟩
        rintro _ ⟨⟩
        exact significant
      · by_cases invalid : token.kind = .invalid
        · obtain ⟨skipped, after, skips, ready⟩ := ih messages.tail
          exact ⟨_, after, .more (.invalid invalid) skips, ready⟩
        · have trivia : token.kind.isTrivia = true := by
            simpa [Kind.isSignificant, invalid] using significant
          obtain ⟨skipped, after, skips, ready⟩ := ih messages
          exact ⟨_, after, .more (.trivia trivia) skips, ready⟩

theorem Ready.tokens_eq_nil (ready : supply.Ready) (nothing : supply.seen = []) :
    supply.tokens = [] := by
  obtain ⟨tokens, messages⟩ := supply
  cases tokens with
  | nil => rfl
  | cons token tokens =>
      have significant : token.kind.isSignificant = true := ready token rfl
      simp [Supply.seen, significant] at nothing

end Supply

/-! ## Without messages nothing is passed over but trivia -/

theorem Supply.Skips.shapes_eq_nil {supply after : Supply} {skipped : List Tree}
    (skips : Skips supply skipped after) (clean : Shape.allClean (Tree.shapes skipped) = true) :
    Tree.shapes skipped = [] := by
  induction skips with
  | done => rfl
  | more skip _ ih =>
      rw [Tree.shapes, Shape.allClean_append, Bool.and_eq_true] at clean
      rw [Tree.shapes, ih clean.2, List.append_nil]
      cases skip with
      | trivia trivia => rw [Tree.shape, if_pos trivia]
      | invalid invalid => simp [Tree.ofChildren, Tree.shape] at clean

mutual

theorem Dressed.shape_eq {stop : Caret} {supply after : Supply} {shape : Shape} {tree : Tree}
    (dressed : Dressed stop supply shape tree after) (clean : Shape.allClean tree.shape = true) :
    tree.shape = [shape] := by
  cases dressed with
  | @token token _ _ significant =>
      have kept : token.kind.isTrivia = false := by
        simp only [Kind.isSignificant, Bool.and_eq_true] at significant
        simpa using significant.1
      rw [Tree.shape, if_neg (by simp [kept])]
  | node dressed =>
      rw [Tree.ofChildren, Tree.shape] at clean ⊢
      rw [Shape.allClean_cons, Shape.isClean_node, Bool.and_eq_true, Bool.and_eq_true] at clean
      rw [dressed.shapes_eq clean.1.2]

/-- Where there are no messages, the trees have the shapes that they are made of. -/
theorem AllDressed.shapes_eq {stop : Caret} {supply after : Supply} {shapes : List Shape}
    {trees : List Tree} (dressed : AllDressed stop supply shapes trees after)
    (clean : Shape.allClean (Tree.shapes trees) = true) : Tree.shapes trees = shapes := by
  cases dressed with
  | nil => rfl
  | cons skips _ dressed rest =>
      rw [Tree.shapes_append, Shape.allClean_append, Tree.shapes, Shape.allClean_append,
        Bool.and_eq_true, Bool.and_eq_true] at clean
      rw [Tree.shapes_append, skips.shapes_eq_nil clean.1, Tree.shapes, dressed.shape_eq clean.2.1,
        rest.shapes_eq clean.2.2]
      rfl

end

/-! ## What an assembly does -/

namespace Supply

variable {supply middle after : Supply} {skipped : List Tree} {tree : Tree} {outer : Assembly}
  {kind : NodeKind} {message? : Option String} {children : List Tree}

/-- An assembly with a node open in it, and so many children of this node, last first. -/
def inside (supply : Supply) (outer : Assembly) (kind : NodeKind) (message? : Option String)
    (children : List Tree) : Assembly :=
  { outer with
    tokens := supply.tokens
    messages := supply.messages
    frames := ⟨kind, message?, children⟩ :: outer.frames }

theorem Skips.flushWhile (skips : Skips supply skipped after) {test : Token → Bool}
    (passes : ∀ token, token.kind.isSignificant = false → test token = true)
    (stops : ∀ token ∈ after.tokens.head?, test token = false) (tokens : List Token) :
    Assembly.flushWhile test supply.tokens { supply.inside outer kind message? children with tokens } =
      after.inside outer kind message? (skipped.reverse ++ children) := by
  induction skips generalizing children with
  | @done supply =>
      obtain ⟨left, messages⟩ := supply
      cases left with
      | nil => rfl
      | cons token left =>
          have stop : test token = false := stops token rfl
          unfold Assembly.flushWhile
          rw [if_neg (by simp [stop])]
          rfl
  | more skip _ ih =>
      rw [List.reverse_cons, List.append_assoc, List.singleton_append, ← ih stops]
      cases skip with
      | @trivia token _ _ trivia =>
          have valid : token.kind ≠ .invalid := by
            intro invalid
            rw [invalid] at trivia
            contradiction
          rw [Assembly.flushWhile, if_pos (passes token (by simp [Kind.isSignificant, trivia])),
            Assembly.pushSkipped, if_neg valid]
          rfl
      | @invalid token _ _ invalid =>
          rw [Assembly.flushWhile, if_pos (passes token (by simp [Kind.isSignificant, invalid])),
            Assembly.pushSkipped, if_pos invalid]
          rfl

theorem Skips.flushSkipped (skips : Skips supply skipped after) (ready : after.Ready) :
    (supply.inside outer kind message? children).flushSkipped =
      after.inside outer kind message? (skipped.reverse ++ children) :=
  skips.flushWhile (fun token passed => by simp [passed]) (fun token next => by
    simp [ready token next]) supply.tokens

theorem Skips.flushAll (skips : Skips supply skipped after) (nothing : after.tokens = []) :
    (supply.inside outer kind message? children).flushAll =
      after.inside outer kind message? (skipped.reverse ++ children) :=
  skips.flushWhile (fun _ _ => rfl) (fun token next => by simp [nothing] at next) supply.tokens

/-- What is passed over before a shape may be put in before the shape is. -/
theorem Skips.put (skips : Skips supply skipped after) (ready : after.Ready) (shape : Shape) :
    (supply.inside outer kind message? children).put shape =
      (after.inside outer kind message? (skipped.reverse ++ children)).put shape := by
  have before : (supply.inside outer kind message? children).flushSkipped = _ :=
    skips.flushSkipped ready
  have here : (after.inside outer kind message? (skipped.reverse ++ children)).flushSkipped = _ :=
    Skips.done.flushSkipped ready
  cases shape with
  | token piece =>
      unfold Assembly.put Assembly.takeToken
      rw [before, here]
      rfl
  | node kind' message?' shapes =>
      unfold Assembly.put Assembly.openNode
      rw [if_neg (by simp [inside]), if_neg (by simp [inside]), before, here]
      rfl

end Supply

mutual

/-- The tree of a shape is put in. -/
theorem exists_dressed {supply : Supply} (ready : supply.Ready) (stop : Caret) (shape : Shape)
    {left : List Piece} (seen : supply.seen = shape.leaves ++ left) :
    ∃ tree after, Dressed stop supply shape tree after ∧ after.seen = left ∧
      ∀ outer kind message? children, outer.stop = stop →
        (supply.inside outer kind message? children).put shape =
          after.inside outer kind message? (tree :: children) := by
  cases shape with
  | token piece =>
      obtain ⟨tokens, messages⟩ := supply
      cases tokens with
      | nil => cases seen
      | cons token tokens =>
          have significant : token.kind.isSignificant = true := ready token rfl
          have parts : token.piece = piece ∧ Supply.seen ⟨tokens, messages⟩ = left := by
            simpa [Supply.seen, significant] using seen
          obtain ⟨rfl, rest⟩ := parts
          refine ⟨_, _, .token significant, rest, fun outer kind message? children _ => ?_⟩
          have here : (Supply.inside ⟨token :: tokens, messages⟩ outer kind message?
              children).flushSkipped = _ := Supply.Skips.done.flushSkipped ready
          unfold Assembly.put Assembly.takeToken
          rw [here]
          rfl
  | node kind' message?' shapes =>
      obtain ⟨trees, after, dressed, rest, puts⟩ := exists_allDressed supply stop shapes seen
      refine ⟨_, after, .node dressed, rest, fun outer kind message? children same => ?_⟩
      have here : (supply.inside outer kind message? children).flushSkipped = _ :=
        Supply.Skips.done.flushSkipped ready
      have opened : (supply.inside outer kind message? children).openNode kind' message?' =
          supply.inside (supply.inside outer kind message? children) kind' message?' [] := by
        unfold Assembly.openNode
        rw [if_neg (by simp [Supply.inside]), here]
        rfl
      subst same
      rw [Assembly.put, opened, puts (supply.inside outer kind message? children) kind' message?' [] rfl,
        List.append_nil]
      show after.inside outer kind message? (.ofChildren kind' message?' trees.reverse.reverse _ :: children) = _
      rw [List.reverse_reverse]
      rfl

/-- The trees of several shapes are put in, with what is passed over before them. -/
theorem exists_allDressed (supply : Supply) (stop : Caret) (shapes : List Shape) {left : List Piece}
    (seen : supply.seen = Shape.leavesAll shapes ++ left) :
    ∃ trees after, AllDressed stop supply shapes trees after ∧ after.seen = left ∧
      ∀ outer kind message? children, outer.stop = stop →
        (supply.inside outer kind message? children).putAll shapes =
          after.inside outer kind message? (trees.reverse ++ children) := by
  cases shapes with
  | nil => exact ⟨[], supply, .nil, seen, fun _ _ _ _ _ => rfl⟩
  | cons shape shapes =>
      obtain ⟨skipped, middle, skips, ready⟩ := supply.exists_skips
      rw [← skips.seen, Shape.leavesAll_cons, List.append_assoc] at seen
      obtain ⟨tree, next, dressed, seen, puts⟩ := exists_dressed ready stop shape seen
      obtain ⟨trees, after, more, seen, puts'⟩ := exists_allDressed next stop shapes seen
      refine ⟨_, after, .cons skips ready dressed more, seen, fun outer kind message? children same => ?_⟩
      rw [Assembly.putAll, skips.put ready, puts _ _ _ _ same, puts' _ _ _ _ same]
      simp

end

/-! ## Whole texts -/

/-- All tokens of a text. -/
def Supply.ofLexed (lexed : Lexed) : Supply where
  tokens := lexed.tokens
  messages := lexed.errors.map LexicalError.message

/-- A tree is made of the shapes in a file, and everything that is left over is in it as well. -/
inductive Rooted (lexed : Lexed) (shapes : List Shape) : Tree → Prop
  | file {trees skipped : List Tree} {middle last : Supply}
      (dressed : AllDressed (Assembly.ofLexed lexed).stop (.ofLexed lexed) shapes trees middle)
      (skips : Skips middle skipped last) (nothing : last.tokens = []) :
      Rooted lexed shapes (.ofChildren .file none (trees ++ skipped) (Assembly.ofLexed lexed).stop)

theorem rooted_put {lexed : Lexed} {shapes : List Shape}
    (seen : (Supply.ofLexed lexed).seen = Shape.leavesAll shapes) :
    Rooted lexed shapes
      (((Assembly.ofLexed lexed).openNode .file none).putAll shapes).flushAll.close.root := by
  obtain ⟨trees, middle, dressed, rest, puts⟩ := exists_allDressed (.ofLexed lexed)
    (Assembly.ofLexed lexed).stop shapes (seen.trans (List.append_nil _).symm)
  obtain ⟨skipped, ⟨tokens, messages⟩, skips, ready⟩ := middle.exists_skips
  obtain rfl : tokens = [] := ready.tokens_eq_nil (skips.seen.trans rest)
  have opened : (Assembly.ofLexed lexed).openNode .file none =
      (Supply.ofLexed lexed).inside (.ofLexed lexed) .file none [] := rfl
  have root : (Supply.inside ⟨[], messages⟩ (.ofLexed lexed) .file none
      (skipped.reverse ++ trees.reverse)).close.root =
        .ofChildren .file none (trees ++ skipped) (Assembly.ofLexed lexed).stop := by
    rw [← List.reverse_append, ← List.reverse_reverse (trees ++ skipped), List.reverse_reverse]
    rfl
  rw [opened, puts _ _ _ _ rfl, List.append_nil, skips.flushAll rfl, root]
  exact .file dressed skips rfl

end StarlarkSyntax
