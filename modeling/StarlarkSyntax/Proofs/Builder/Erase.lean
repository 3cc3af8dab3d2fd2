import StarlarkSyntax.Proofs.Builder.Resolve
/-!
# Assembling without what was passed over

Assembling a tree from the steps of a plan and drawing a page from its acts go side by side. Frame by
frame, what has been put into the assembly is what stands on the page, apart from trivia and invalid
tokens (`Erases`).

In the end one thing depends on what was passed over: a single node is the root only if nothing else
stands beside it. Nothing passed over is put outside of all nodes unless something else is put there
too, so this is decided by what stands on the page (`Solid`).
-/

set_option autoImplicit false

namespace StarlarkSyntax

namespace Tree

@[simp] theorem bareAll_nil : bareAll [] = [] := rfl

@[simp] theorem bareAll_cons (tree : Tree) (trees : List Tree) :
    bareAll (tree :: trees) = tree.bare ++ bareAll trees := rfl

@[simp] theorem bareAll_append (s t : List Tree) : bareAll (s ++ t) = bareAll s ++ bareAll t := by
  induction s with
  | nil => rfl
  | cons tree s ih => rw [List.cons_append, bareAll_cons, bareAll_cons, ih, List.append_assoc]

/-- Is this a leaf with an invalid token? -/
def isInvalid : Tree → Bool
  | leaf token => token.kind == .invalid
  | node .. => false

/-- Nothing is erased with a node in which no invalid token stands. -/
theorem bare_ofChildren {children : List Tree}
    (tidy : ∀ tree ∈ children, tree.isInvalid = false) (kind : NodeKind) (message? : Option String)
    (caret : Caret) :
    (ofChildren kind message? children caret).bare = [.node kind message? (bareAll children)] := by
  have kept : holdsInvalid kind children = false := by
    unfold holdsInvalid
    split
    · rename_i token
      have valid := tidy (leaf token) List.mem_cons_self
      rw [show (token.kind == .invalid) = false from valid, Bool.and_false]
    · rfl
  rw [ofChildren, bare, kept]
  rfl

end Tree

/-- Some children, last first, are what some items say, apart from what was passed over. -/
structure Pile (children : List Tree) (items : List Item) : Prop where
  tidy : ∀ tree ∈ children, tree.isInvalid = false
  bare : Tree.bareAll children.reverse = items.map Item.bare

theorem Pile.push {children : List Tree} {items more : List Item} (pile : Pile children items)
    {tree : Tree} (valid : tree.isInvalid = false) (bare : tree.bare = more.map Item.bare) :
    Pile (tree :: children) (items ++ more) where
  tidy := List.forall_mem_cons.2 ⟨valid, pile.tidy⟩
  bare := by simp [pile.bare, bare]

/-- The open nodes of an assembly are the frames of a page, and have the same in them. -/
def Stacked (completion : Nat → Completion) (roots : List Tree) :
    List Frame → List Item → List Opened → Prop
  | [], items, opened => opened = [] ∧ Pile roots items
  | frame :: frames, items, opened => ∃ marker outside outer, opened = ⟨marker, outside⟩ :: outer ∧
      (frame.kind, frame.message?) = (completion marker).shape ∧ Pile frame.children items ∧
      Stacked completion roots frames outside outer

namespace Assembly

/-- What is in the assembly stands on the page, and the same is left. -/
structure Shows (completion : Nat → Completion) (assembly : Assembly) (page : Page) : Prop where
  tokens : assembly.tokens.filter (·.kind.isSignificant) = page.rest
  stacked : Stacked completion assembly.roots assembly.frames page.items page.frames

/-- Nothing stands outside of all nodes if nothing but what was passed over stands there. -/
def Solid (assembly : Assembly) : Prop :=
  Tree.bareAll assembly.roots.reverse = [] → assembly.roots = []

theorem tokens_flushWhile (test : Token → Bool) (tokens : List Token) (assembly : Assembly) :
    (flushWhile test tokens assembly).tokens = tokens.dropWhile test := by
  induction tokens generalizing assembly with
  | nil => rfl
  | cons token tokens ih =>
      unfold flushWhile
      split
      · rename_i passes
        rw [List.dropWhile_cons_of_pos passes]
        exact ih _
      · rename_i stops
        rw [List.dropWhile_cons_of_neg stops]

section Shows

variable {completion : Nat → Completion} {assembly : Assembly} {page : Page}

theorem Shows.push (shown : Shows completion assembly page) {tree : Tree} {more : List Item}
    (valid : tree.isInvalid = false) (bare : tree.bare = more.map Item.bare) :
    Shows completion (assembly.push tree) { page with items := page.items ++ more } := by
  obtain ⟨tokens, messages, frames, roots, stop⟩ := assembly
  cases frames with
  | nil => exact ⟨shown.tokens, shown.stacked.1, shown.stacked.2.push valid bare⟩
  | cons frame frames =>
      obtain ⟨marker, outside, outer, is, shape, pile, rest⟩ := shown.stacked
      exact ⟨shown.tokens, marker, outside, outer, is, shape, pile.push valid bare, rest⟩

/-- The tokens may be set to others if the page has the same left. -/
theorem Shows.rest (shown : Shows completion assembly page) {tokens rest : List Token}
    (same : tokens.filter (·.kind.isSignificant) = rest) :
    Shows completion { assembly with tokens } { page with rest } :=
  ⟨same, shown.stacked⟩

/-- What the page gets when a token is put in that the grammar passed over. -/
theorem Shows.pushSkipped (shown : Shows completion assembly page) (token : Token) :
    Shows completion (assembly.pushSkipped token) { page with
      items := page.items ++ ([token].filter (·.kind.isSignificant)).map Item.passed } := by
  unfold Assembly.pushSkipped
  by_cases invalid : token.kind = .invalid
  · rw [if_pos invalid]
    have noItem : [token].filter (·.kind.isSignificant) = [] := by
      simp [invalid, Kind.isSignificant]
    rw [noItem]
    have others : Shows completion { assembly with messages := assembly.messages.tail } page :=
      ⟨shown.tokens, shown.stacked⟩
    dsimp only
    refine others.push rfl ?_
    simp [Tree.ofChildren, Tree.bare, Tree.holdsInvalid, invalid]
  · rw [if_neg invalid]
    refine shown.push (by simpa [Tree.isInvalid] using invalid) ?_
    by_cases significant : token.kind.isSignificant = true
    · simp [Tree.bare, significant, Item.bare]
    · simp [Tree.bare, significant]

theorem Shows.flushWhile (shown : Shows completion assembly page) (test : Token → Bool)
    (tokens : List Token) : Shows completion (flushWhile test tokens assembly) { page with
      rest := (tokens.dropWhile test).filter (·.kind.isSignificant)
      items := page.items ++
        ((tokens.takeWhile test).filter (·.kind.isSignificant)).map Item.passed } := by
  induction tokens generalizing assembly page with
  | nil =>
      rw [List.takeWhile_nil, List.filter_nil, List.map_nil, List.append_nil]
      exact shown.rest rfl
  | cons token tokens ih =>
      unfold Assembly.flushWhile
      by_cases passes : test token = true
      · rw [if_pos passes, List.dropWhile_cons_of_pos passes, List.takeWhile_cons_of_pos passes]
        have flushed := ih (shown.pushSkipped token)
        rw [List.append_assoc, ← List.map_append, ← List.filter_append] at flushed
        exact flushed
      · rw [if_neg passes, List.dropWhile_cons_of_neg passes, List.takeWhile_cons_of_neg passes]
        rw [List.filter_nil, List.map_nil, List.append_nil]
        exact shown.rest rfl

theorem Shows.flushSkipped (shown : Shows completion assembly page) :
    Shows completion assembly.flushSkipped page := by
  have flushed := shown.flushWhile (!·.kind.isSignificant) assembly.tokens
  have nothing : (assembly.tokens.takeWhile (!·.kind.isSignificant)).filter
      (·.kind.isSignificant) = [] := by
    rw [List.filter_eq_nil_iff]
    intro token mem
    simpa using List.mem_takeWhile_imp mem
  have rest : (assembly.tokens.dropWhile (!·.kind.isSignificant)).filter
      (·.kind.isSignificant) = page.rest := by
    rw [← shown.tokens]
    conv_rhs => rw [← List.takeWhile_append_dropWhile (p := (!·.kind.isSignificant))
      (l := assembly.tokens), List.filter_append, nothing, List.nil_append]
  rw [nothing, rest, List.map_nil, List.append_nil] at flushed
  exact flushed

theorem Shows.flushAll (shown : Shows completion assembly page) :
    Shows completion assembly.flushAll
      { page with rest := [], items := page.items ++ page.rest.map Item.passed } := by
  have flushed := shown.flushWhile (fun _ => true) assembly.tokens
  rw [show assembly.tokens.takeWhile (fun _ => true) = assembly.tokens by simp,
    show assembly.tokens.dropWhile (fun _ => true) = [] by simp, shown.tokens] at flushed
  exact flushed

/-- The next token is the next one that the page has left. -/
theorem tokens_flushSkipped (shown : Shows completion assembly page) {token : Token}
    {rest : List Token} (left : page.rest = token :: rest) : ∃ more,
      assembly.flushSkipped.tokens = token :: more ∧ token.kind.isSignificant = true ∧
        more.filter (·.kind.isSignificant) = rest := by
  have same := shown.flushSkipped.tokens
  rw [left] at same
  cases found : assembly.flushSkipped.tokens with
  | nil => simp [found] at same
  | cons first more =>
      have head : first.kind.isSignificant = true := by
        have tokens : assembly.tokens.dropWhile (!·.kind.isSignificant) = first :: more := by
          rw [← tokens_flushWhile _ _ assembly]
          exact found
        have head := List.head?_dropWhile_not (!·.kind.isSignificant) assembly.tokens
        rw [tokens] at head
        simpa using head
      rw [found, List.filter_cons, if_pos head] at same
      obtain ⟨rfl, rest⟩ := List.cons.inj same
      exact ⟨more, rfl, head, rest⟩

theorem Shows.takeToken (shown : Shows completion assembly page) {token : Token}
    {rest : List Token} (left : page.rest = token :: rest) :
    Shows completion assembly.takeToken ({ page with rest }.add (.passed token)) := by
  obtain ⟨more, found, significant, same⟩ := tokens_flushSkipped shown left
  unfold Assembly.takeToken
  dsimp only
  rw [found]
  dsimp only
  refine Shows.push (shown.flushSkipped.rest same) ?_
    (by simp [Tree.bare, significant, Item.bare])
  simp only [Tree.isInvalid, beq_eq_false_iff_ne]
  intro invalid
  simp [invalid, Kind.isSignificant] at significant

theorem Shows.missing (shown : Shows completion assembly page) (message : String) (caret : Caret) :
    Shows completion (assembly.push (.missing message caret)) (page.add (.missing message)) :=
  shown.push rfl (by simp [Tree.missing, Tree.bare, Tree.holdsInvalid, Item.bare])

theorem Shows.openNode (shown : Shows completion assembly page) {kind : NodeKind}
    {message? : Option String} {marker : Nat} (shape : (kind, message?) = (completion marker).shape) :
    Shows completion (assembly.openNode kind message?) (page.openFrame marker) := by
  unfold Assembly.openNode
  have flushed : Shows completion (if assembly.frames.isEmpty then assembly
      else assembly.flushSkipped) page := by
    split
    · exact shown
    · exact shown.flushSkipped
  exact ⟨flushed.tokens, marker, page.items, page.frames, rfl, shape, ⟨nofun, rfl⟩, flushed.stacked⟩

/-- What begins with an act is opened, outermost first. -/
theorem Shows.openAll (shown : Shows completion assembly page) {chain : List Nat}
    (resolved : ∀ marker ∈ chain, completion marker ≠ .unresolved) :
    Shows completion ((chain.map completion).reverse.foldl openCompletion assembly)
      (page.openAll completion chain) := by
  induction chain with
  | nil => exact shown
  | cons marker chain ih =>
      obtain ⟨here, resolved⟩ := List.forall_mem_cons.1 resolved
      rw [List.map_cons, List.reverse_cons, List.foldl_append]
      change Shows completion (openCompletion _ (completion marker))
        (if completion marker = .abandoned then Page.openAll _ _ _
          else (Page.openAll _ _ _).openFrame marker)
      cases is : completion marker with
      | unresolved => exact absurd is here
      | abandoned => exact ih resolved
      | node kind => exact (ih resolved).openNode (by rw [is]; rfl)
      | error message => exact (ih resolved).openNode (by rw [is]; rfl)

theorem Shows.close (shown : Shows completion assembly page) {marker : Nat} {outside : List Item}
    {frames : List Opened} (found : page.frames = ⟨marker, outside⟩ :: frames) :
    Shows completion assembly.close { page with
      items := outside ++ [.made marker (completion marker).shape.1 (completion marker).shape.2
        (page.items.map Item.bare)]
      frames } := by
  obtain ⟨tokens, messages, open', roots, stop⟩ := assembly
  cases open' with
  | nil =>
      have none := shown.stacked.1
      rw [found] at none
      contradiction
  | cons frame open' =>
      obtain ⟨marker', outside', outer, is, shape, pile, rest⟩ := shown.stacked
      rw [found] at is
      cases is
      have tidy : ∀ tree ∈ frame.children.reverse, tree.isInvalid = false := fun tree mem =>
        pile.tidy tree (List.mem_reverse.1 mem)
      have kind : frame.kind = (completion marker).shape.1 := congrArg Prod.fst shape
      have message : frame.message? = (completion marker).shape.2 := congrArg Prod.snd shape
      have around : Shows completion ⟨tokens, messages, open', roots, stop⟩
          { page with items := outside, frames } := ⟨shown.tokens, rest⟩
      unfold Assembly.close
      dsimp only
      refine around.push rfl ?_
      rw [Tree.bare_ofChildren tidy, pile.bare, kind, message]
      rfl

/-- What an act draws is what its step puts in. -/
theorem Shows.step (shown : Shows completion assembly page) {act : Act} {next : Page}
    (drawn : page.act completion act = some next)
    (resolved : ∀ marker ∈ act.chain, completion marker ≠ .unresolved) :
    Shows completion (assembly.step (act.resolved completion)) next := by
  cases act with
  | opening marker wrappers =>
      cases drawn
      exact shown.openAll resolved
  | wrapper marker =>
      cases drawn
      exact shown
  | finish =>
      obtain ⟨marker, outside, frames, found, rfl⟩ := Page.act_finish drawn
      exact shown.close found
  | token =>
      obtain ⟨token, rest, left, rfl⟩ := Page.act_token drawn
      exact shown.takeToken left
  | missing message =>
      cases drawn
      exact shown.flushSkipped.missing message _

end Shows

/-! ## What stands outside of all nodes -/

section Solid

variable {assembly : Assembly}

theorem roots_push (tree : Tree) (inside : assembly.frames ≠ []) :
    (assembly.push tree).roots = assembly.roots := by
  obtain ⟨tokens, messages, frames, roots, stop⟩ := assembly
  cases frames with
  | nil => contradiction
  | cons frame frames => rfl

theorem frames_push (tree : Tree) (inside : assembly.frames ≠ []) :
    (assembly.push tree).frames ≠ [] := by
  intro none
  have length := length_frames_push tree assembly
  rw [none] at length
  exact inside (List.length_eq_zero_iff.1 length.symm)

/-- Nothing is put outside of all nodes while one is open. -/
theorem roots_flushWhile (test : Token → Bool) (tokens : List Token) (inside : assembly.frames ≠ []) :
    (flushWhile test tokens assembly).roots = assembly.roots ∧
      (flushWhile test tokens assembly).frames ≠ [] := by
  induction tokens generalizing assembly with
  | nil => exact ⟨rfl, inside⟩
  | cons token tokens ih =>
      unfold flushWhile
      split
      · unfold pushSkipped
        split
        · have others : ({ assembly with messages := assembly.messages.tail } : Assembly).frames ≠ [] :=
            inside
          obtain ⟨roots, frames⟩ := ih (frames_push _ others)
          exact ⟨roots.trans (roots_push _ inside), frames⟩
        · obtain ⟨roots, frames⟩ := ih (frames_push _ inside)
          exact ⟨roots.trans (roots_push _ inside), frames⟩
      · exact ⟨rfl, inside⟩

/-- Something that is not passed over may be put anywhere. -/
theorem Solid.push (solid : assembly.frames ≠ [] → assembly.Solid) {tree : Tree}
    (visible : tree.bare ≠ []) : (assembly.push tree).Solid := by
  by_cases inside : assembly.frames = []
  · obtain ⟨tokens, messages, frames, roots, stop⟩ := assembly
    cases inside
    intro nothing
    change Tree.bareAll (tree :: roots).reverse = [] at nothing
    rw [List.reverse_cons, Tree.bareAll_append, List.append_eq_nil_iff] at nothing
    exact absurd (by simpa using nothing.2) visible
  · unfold Solid
    rw [roots_push tree inside]
    exact solid inside

theorem Solid.flushSkipped (solid : assembly.Solid) (inside : assembly.flushSkipped.frames ≠ []) :
    assembly.flushSkipped.Solid := by
  have inside' : assembly.frames ≠ [] := fun none => inside (frames_flushWhile _ _ _ none)
  unfold Solid
  rw [show assembly.flushSkipped.roots = assembly.roots from (roots_flushWhile _ _ inside').1]
  exact solid

theorem Solid.openCompletion (solid : assembly.Solid) (completion : Completion) :
    (assembly.openCompletion completion).Solid := by
  have opened (kind : NodeKind) (message? : Option String) :
      (assembly.openNode kind message?).Solid := by
    unfold openNode
    dsimp only
    split
    · exact solid
    · rename_i some
      have inside : assembly.frames ≠ [] := by simpa using some
      exact solid.flushSkipped (roots_flushWhile _ _ inside).2
  cases completion with
  | unresolved | abandoned => exact solid
  | node _ => exact opened _ _
  | error _ => exact opened _ _

theorem Solid.step (solid : assembly.Solid) {completion : Nat → Completion} {page next : Page}
    (shown : Shows completion assembly page) {act : Act}
    (drawn : page.act completion act = some next) :
    (assembly.step (act.resolved completion)).Solid := by
  cases act with
  | opening marker wrappers =>
      change (List.foldl Assembly.openCompletion assembly _).Solid
      generalize ((marker :: wrappers).map completion).reverse = completions
      clear shown
      induction completions generalizing assembly with
      | nil => exact solid
      | cons first completions ih => exact ih (solid.openCompletion first)
  | wrapper marker => exact solid
  | finish =>
      obtain ⟨tokens, messages, frames, roots, stop⟩ := assembly
      cases frames with
      | nil => exact solid
      | cons frame frames =>
          obtain ⟨-, -, -, -, -, pile, -⟩ := shown.stacked
          have tidy : ∀ tree ∈ frame.children.reverse, tree.isInvalid = false := fun tree mem =>
            pile.tidy tree (List.mem_reverse.1 mem)
          have kept : Solid ⟨tokens, messages, frames, roots, stop⟩ := solid
          unfold Assembly.step Act.resolved close
          refine Solid.push (fun _ => kept) ?_
          rw [Tree.bare_ofChildren tidy]
          exact List.cons_ne_nil _ _
  | token =>
      obtain ⟨token, rest, left, -⟩ := Page.act_token drawn
      obtain ⟨more, found, significant, -⟩ := tokens_flushSkipped shown left
      show assembly.takeToken.Solid
      unfold takeToken
      dsimp only
      rw [found]
      have visible : (Tree.leaf token).bare ≠ [] := by simp [Tree.bare, significant]
      show (Assembly.push (.leaf token) { assembly.flushSkipped with tokens := more }).Solid
      refine Solid.push ?_ visible
      exact fun inside => solid.flushSkipped inside
  | missing message =>
      refine Solid.push (fun inside => solid.flushSkipped inside) ?_
      simp [Tree.missing, Tree.bare, Tree.holdsInvalid]

end Solid

/-! ## Whole runs -/

/-- What the acts draw is what their steps put in. -/
theorem Shows.steps {completion : Nat → Completion} {acts : List Act} {assembly : Assembly}
    {page result : Page} (shown : Shows completion assembly page) (solid : assembly.Solid)
    (drawn : Page.draw completion acts page = some result)
    (resolved : ∀ marker ∈ Act.opened acts, completion marker ≠ .unresolved) :
    Shows completion ((acts.map (Act.resolved completion)).foldl Assembly.step assembly) result ∧
      ((acts.map (Act.resolved completion)).foldl Assembly.step assembly).Solid := by
  induction acts generalizing assembly page with
  | nil =>
      cases drawn
      exact ⟨shown, solid⟩
  | cons act acts ih =>
      obtain ⟨next, first, rest⟩ := Option.bind_eq_some_iff.1 drawn
      obtain ⟨here, later⟩ := List.forall_mem_append.1 resolved
      exact ih (shown.step first here) (solid.step shown first) rest later

theorem run_finish (steps : List Step) (assembly : Assembly) :
    run (steps ++ [.finish]) assembly =
      (if (steps.foldl Assembly.step assembly).frames.length = 1 then
        (steps.foldl Assembly.step assembly).flushAll else steps.foldl Assembly.step assembly).close := by
  induction steps generalizing assembly with
  | nil => rfl
  | cons first steps ih =>
      rw [List.cons_append, run, ih]
      · rfl
      · simp

theorem run_of_last_ne {steps : List Step} (other : steps.getLast? ≠ some .finish)
    (assembly : Assembly) : run steps assembly = steps.foldl Assembly.step assembly := by
  induction steps generalizing assembly with
  | nil => rfl
  | cons first steps ih =>
      cases steps with
      | nil =>
          rw [run]
          · rfl
          · rintro rfl -
            exact other rfl
      | cons second steps =>
          rw [run]
          · exact ih (by simpa [List.getLast?_cons_cons] using other) _
          · simp

end Assembly

/-! ## The root -/

/-- Unless a single node is the root, a file is put around everything. -/
theorem Page.root_eq {trees : List Bare} (notRoot : ∀ kind message? children,
    trees = [.node kind message? children] → kind = .error) :
    Page.root trees = .node .file none trees := by
  unfold Page.root
  split
  · rename_i kind message? children
    rw [if_pos (notRoot kind message? children rfl)]
  · rfl

/-- The root that is put around everything, or the single node that is the root already. -/
theorem Assembly.bare_root {assembly : Assembly} (closed : assembly.frames = [])
    (tidy : ∀ tree ∈ assembly.flushAll.roots, tree.isInvalid = false)
    (single : ∀ kind message? children,
      Tree.bareAll assembly.flushAll.roots.reverse = [.node kind message? children] →
        kind ≠ .error → ∃ tree, assembly.flushAll.roots = [tree]) :
    assembly.root.bare = [Page.root (Tree.bareAll assembly.flushAll.roots.reverse)] := by
  unfold Assembly.root
  rw [closed, closeAll]
  dsimp only
  generalize assembly.flushAll = final at tidy single
  split
  · rename_i tree only
    rw [only] at tidy ⊢
    rw [List.reverse_singleton]
    cases tree with
    | leaf token =>
        rw [if_neg (by simp [Tree.isNode]), Tree.bare_ofChildren tidy, Page.root_eq]
        intro kind message? children same
        by_cases significant : token.kind.isSignificant = true
        · simp [Tree.bare, significant] at same
        · simp [Tree.bare, significant] at same
    | node kind message? span children =>
        by_cases error : kind = .error
        · rw [if_neg (by simp [Tree.isError, Tree.kind?, error]), Tree.bare_ofChildren tidy,
            Page.root_eq]
          intro kind' message' children' same
          rw [Tree.bareAll_cons, Tree.bare] at same
          split at same
          · contradiction
          · cases same
            exact error
        · rw [if_pos (by simp [Tree.isNode, Tree.isError, Tree.kind?, error])]
          have kept : Tree.holdsInvalid kind children = false := by
            unfold Tree.holdsInvalid
            split <;> simp [error]
          simp [Tree.bare, kept, Page.root, error]
  · rename_i roots several
    have tidy' : ∀ tree ∈ final.roots.reverse, tree.isInvalid = false := fun tree mem =>
      tidy tree (List.mem_reverse.1 mem)
    rw [Tree.bare_ofChildren tidy', Page.root_eq]
    intro kind message? children same
    by_contra error
    obtain ⟨tree, only⟩ := single kind message? children same error
    exact several tree only

end StarlarkSyntax
