import StarlarkSyntax.Proofs.Builder.Erase
import StarlarkSyntax.Proofs.Builder.Stand
/-!
# The tree of a builder is the one that is drawn

Whatever a grammar does with a builder, if it uses its markers as it should, the tree that the builder
makes in the end is the one that is drawn directly, with trivia and invalid tokens put in
(`bare_tree_eq`).
-/

set_option autoImplicit false

namespace StarlarkSyntax

/-- If some acts leave no frame open, the last of them makes no marker. -/
theorem Fresh.last_plain {acts : List Act} {act : Act} (fresh : Fresh (acts ++ [act]) []) :
    act.owner? = none := by
  cases owner : act.owner? with
  | none => rfl
  | some marker => cases fresh marker (by rw [List.getLast?_concat, Option.bind_some, owner])

/-- Was the item made with a marker? -/
def Item.isMade : Item → Bool
  | .made .. => true
  | _ => false

/-- Only what was made with a marker is a node that is no error. -/
theorem Item.eq_error {item : Item} (notMade : item.isMade = false) {kind : NodeKind}
    {message? : Option String} {children : List Bare}
    (same : item.bare = .node kind message? children) : kind = .error := by
  cases item with
  | passed | made => contradiction
  | missing message =>
      cases same
      rfl

namespace Page

/-- An act that closes nothing adds something that was not made with a marker. -/
theorem items_of_act {completion : Nat → Completion} {page next : Page} {act : Act}
    (drawn : page.act completion act = some next) (plain : act.owner? = none)
    (other : act ≠ .finish) :
    ∃ item, next.items = page.items ++ [item] ∧ item.isMade = false := by
  cases act with
  | opening | wrapper | finish => contradiction
  | token =>
      obtain ⟨token, rest, -, rfl⟩ := act_token drawn
      exact ⟨.passed token, rfl, rfl⟩
  | missing message =>
      cases drawn
      exact ⟨.missing message, rfl, rfl⟩

/-- Tokens that are left go beside what is on the page if nothing was made last. -/
theorem tree_of_last {page : Page}
    (last : ∀ item, page.items.getLast? = some item → item.isMade = false) :
    page.tree = root (page.items.map Item.bare ++ page.rest.map Bare.token) := by
  unfold tree
  dsimp only
  split
  · rename_i found
    cases last _ found
  · rfl

/-- Tokens that are left go into what was made last. -/
theorem tree_of_made {rest : List Token} {outside : List Item} {marker : Nat} {kind : NodeKind}
    {message? : Option String} {children : List Bare} :
    tree ⟨rest, outside ++ [.made marker kind message? children], []⟩ =
      root (outside.map Item.bare ++ [.node kind message? (children ++ rest.map Bare.token)]) := by
  unfold tree
  dsimp only
  rw [List.getLast?_concat, List.dropLast_concat]

end Page

namespace Assembly

variable {completion : Nat → Completion} {assembly : Assembly} {page : Page}

/-- An assembly has as many open nodes as the page has frames. -/
theorem Shows.length_frames (shown : Shows completion assembly page) :
    assembly.frames.length = page.frames.length := by
  have stacked := shown.stacked
  generalize page.items = items, page.frames = opened, assembly.frames = frames at stacked
  induction frames generalizing items opened with
  | nil =>
      rw [stacked.1]
      rfl
  | cons frame frames ih =>
      obtain ⟨marker, outside, outer, rfl, -, -, stacked⟩ := stacked
      rw [List.length_cons, List.length_cons, ih outside outer stacked]

/-- When no node is open, everything that is left goes beside what stands there. -/
theorem Shows.flushed_roots (shown : Shows completion assembly page) (closed : page.frames = []) :
    assembly.frames = [] ∧ (∀ tree ∈ assembly.flushAll.roots, tree.isInvalid = false) ∧
      Tree.bareAll assembly.flushAll.roots.reverse =
        page.items.map Item.bare ++ page.rest.map Bare.token := by
  have none : assembly.frames = [] := by
    rw [← List.length_eq_zero_iff, shown.length_frames, closed]
    rfl
  have flushed := shown.flushAll.stacked
  rw [show assembly.flushAll.frames = [] from frames_flushWhile _ _ _ none] at flushed
  refine ⟨none, flushed.2.tidy, flushed.2.bare.trans ?_⟩
  rw [List.map_append, List.map_map]
  rfl

/-- The tree if the last step closed nothing. Then nothing is the root but the file around it. -/
theorem Shows.bare_root (shown : Shows completion assembly page) (closed : page.frames = [])
    (last : ∀ item, page.items.getLast? = some item → item.isMade = false) :
    assembly.root.bare = [page.tree] := by
  obtain ⟨none, tidy, bare⟩ := shown.flushed_roots closed
  rw [Assembly.bare_root none tidy, bare, Page.tree_of_last last]
  intro kind message? children same error
  rw [bare, List.append_eq_singleton_iff] at same
  rcases same with ⟨-, token⟩ | ⟨item, -⟩
  · obtain ⟨token, -, is⟩ := List.map_eq_singleton_iff.1 token
    contradiction
  · obtain ⟨item, only, is⟩ := List.map_eq_singleton_iff.1 item
    exact absurd (Item.eq_error (last item (by rw [only]; rfl)) is) error

/-- The tree if the last step closes the only open node, and what is left goes into it. -/
theorem Shows.bare_root_close (shown : Shows completion assembly page) (solid : assembly.Solid)
    {marker : Nat} {outside : List Item} (only : page.frames = [⟨marker, outside⟩]) :
    assembly.flushAll.close.root.bare = [Page.tree { page with
      items := outside ++ [.made marker (completion marker).shape.1 (completion marker).shape.2
        (page.items.map Item.bare)]
      frames := [] }] := by
  have flushed := shown.flushAll
  have closed : Shows completion assembly.flushAll.close _ := flushed.close only
  obtain ⟨none, tidy, bare⟩ := closed.flushed_roots rfl
  rw [Assembly.bare_root none tidy, bare, Page.tree_of_made]
  · simp [Function.comp_def, Item.bare]
  · intro kind message? children same error
    rw [bare] at same
    have noOutside : outside = [] := by
      cases outside with
      | nil => rfl
      | cons item outside => simp at same
    -- Since nothing stands outside, nothing that was passed over stands there either.
    have length : assembly.frames.length = 1 := by
      rw [shown.length_frames, only]
      rfl
    have inside : assembly.frames ≠ [] := fun none => by simp [none] at length
    have roots : assembly.flushAll.roots = [] := by
      refine (roots_flushWhile _ _ inside).1.trans (solid ?_)
      have stacked := shown.stacked
      cases found : assembly.frames with
      | nil => contradiction
      | cons frame frames =>
          rw [found, only] at stacked
          obtain ⟨_, _, _, is, -, -, stacked⟩ := stacked
          cases is
          rw [found, List.length_cons, Nat.add_eq_right, List.length_eq_zero_iff] at length
          rw [length] at stacked
          rw [stacked.2.bare, noOutside]
          rfl
    have length' : assembly.flushAll.frames.length = 1 := by
      rw [flushed.length_frames, only]
      rfl
    have tokens : assembly.flushAll.tokens = [] := by
      unfold Assembly.flushAll
      rw [tokens_flushWhile_true]
    generalize assembly.flushAll = last at roots length' tokens
    obtain ⟨_, messages, frames, _, stop⟩ := last
    cases roots
    cases tokens
    obtain ⟨frame, rfl⟩ := List.length_eq_one_iff.1 length'
    exact ⟨_, rfl⟩

end Assembly

/-- When no frame is open, everything that begins has been resolved. -/
theorem Follows.settled {start : Page} {plan : Plan} {draft : Draft}
    (follows : Follows start plan draft) (closed : draft.page.frames = []) :
    ∀ marker ∈ Act.opened plan.acts, plan.completion marker ≠ .unresolved := by
  intro marker begun unresolved
  have mem := follows.resolved marker begun unresolved
  rw [Page.markers, closed] at mem
  contradiction

/-- The builder of a bench makes the tree of the draft for which the bench stands. -/
theorem Stands.bare_finish {lexed : Lexed} {plan : Plan} {draft : Draft} {bench : Bench}
    (stands : Stands lexed plan draft bench)
    (follows : Follows (Draft.ofLexed lexed).page plan draft) (closed : draft.page.frames = []) :
    bench.builder.finish.bare = [draft.page.tree] := by
  obtain ⟨next, describes⟩ := stands.describes
  have resolved := follows.settled closed
  have drawn := follows.page
  have fresh := follows.fresh
  rw [Page.markers, closed, List.map_nil] at fresh
  unfold Builder.finish
  dsimp only
  rw [describes.resolve_eq follows.ordered, stands.reads.tokens]
  generalize (lexed.tokens.getLast?.map (·.span.stop)).getD {} = stop
  have start : Assembly.Shows plan.completion
      { tokens := lexed.tokens, messages := bench.builder.messages, stop }
      (Draft.ofLexed lexed).page := ⟨rfl, rfl, by rintro _ ⟨⟩, rfl⟩
  have solid : Assembly.Solid
      { tokens := lexed.tokens, messages := bench.builder.messages, stop } := fun _ => rfl
  generalize ({ tokens := lexed.tokens, messages := bench.builder.messages, stop } : Assembly) =
    assembly at start solid
  rcases List.eq_nil_or_concat plan.acts with none | ⟨acts, act, parts⟩
  · rw [none] at drawn ⊢
    rw [← Option.some.inj drawn]
    exact start.bare_root rfl (by rintro _ ⟨⟩)
  · rw [List.concat_eq_append] at parts
    rw [parts] at drawn fresh resolved ⊢
    rw [Act.opened_append] at resolved
    obtain ⟨early, late⟩ := List.forall_mem_append.1 resolved
    rw [Page.draw_append] at drawn
    obtain ⟨page, before, last⟩ := Option.bind_eq_some_iff.1 drawn
    obtain ⟨shown, solid⟩ := start.steps solid before early
    have last : page.act plan.completion act = some draft.page := by
      rw [Page.draw_cons] at last
      obtain ⟨result, last, same⟩ := Option.bind_eq_some_iff.1 last
      cases same
      exact last
    rw [List.map_append, List.map_singleton]
    have plain := fresh.last_plain
    by_cases finish : act = .finish
    · subst finish
      obtain ⟨marker, outside, frames, found, same⟩ := Page.act_finish last
      have noFrames : frames = [] := by
        rw [same] at closed
        exact closed
      subst noFrames
      rw [same]
      have one := shown.length_frames
      rw [found, List.length_singleton] at one
      change ((Assembly.run (_ ++ [.finish]) assembly).root).bare = _
      rw [Assembly.run_finish, if_pos one]
      exact shown.bare_root_close solid found
    · obtain ⟨item, items, notMade⟩ := Page.items_of_act last plain finish
      have other : (acts.map (Act.resolved plan.completion) ++
          [act.resolved plan.completion]).getLast? ≠ some .finish := by
        rw [List.getLast?_concat]
        cases act with
        | finish => contradiction
        | opening | wrapper => rintro ⟨⟩
        | token | missing => rintro ⟨⟩
      rw [Assembly.run_of_last_ne other, List.foldl_append]
      refine (shown.step last ?_).bare_root closed ?_
      · simpa using late
      · intro item' last'
        rw [items, List.getLast?_concat] at last'
        cases last'
        exact notMade

/-- If some operations are allowed on the draft and leave no marker open, then the builder can do
them too, and its tree, without what was passed over, is the one that they draw. -/
theorem bare_tree_eq (lexed : Lexed) (operations : List Operation) (drawn : Bare)
    (allowed : Draft.tree? lexed operations = some drawn) :
    ∃ tree, Bench.tree? lexed operations = some tree ∧ tree.bare = [drawn] := by
  unfold Draft.tree? at allowed
  obtain ⟨draft, ran, closed⟩ := Option.bind_eq_some_iff.1 allowed
  split at closed
  · rename_i none
    obtain ⟨plan, bench, ran', stands, follows⟩ := stands_run ⟨rfl, rfl⟩ (stands_ofLexed lexed)
      (follows_ofLexed lexed) ran
    refine ⟨bench.builder.finish, ?_, ?_⟩
    · rw [Bench.tree?, ran']
      rfl
    · rw [stands.bare_finish follows (List.isEmpty_iff.1 none), Option.some.inj closed]
  · contradiction

/-- A sum is put around its first term, and the second term is tried twice. -/
theorem bare_tree_eq_of_sum :
    let name := Token.zeroWidth .identifier {} 0
    let plus := Token.zeroWidth (.operator .plus) {} 0
    let lexed : Lexed := ⟨[name, Token.zeroWidth .space {} 0, plus, name], []⟩
    let operations : List Operation := [.mark, .mark, .advance, .done 1 .referenceExpression, .precede 1,
      .advance, .mark, .advance, .rollback 3, .mark, .advance, .done 4 .referenceExpression, .keep 4,
      .done 2 .binaryExpression, .done 0 .file]
    let term : Bare := .node .referenceExpression none [.token name]
    let drawn : Bare := .node .file none [.node .binaryExpression none [term, .token plus, term]]
    Draft.tree? lexed operations = some drawn ∧
      ∃ tree, Bench.tree? lexed operations = some tree ∧ tree.bare = [drawn] :=
  ⟨rfl, bare_tree_eq _ _ _ rfl⟩

end StarlarkSyntax
