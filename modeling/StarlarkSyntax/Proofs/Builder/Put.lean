import StarlarkSyntax.Proofs.Builder.Drawn
import StarlarkSyntax.Proofs.Grammar.Shape
/-!
# Shapes put into an assembly

An assembly can be given a whole shape at once: its nodes are opened and closed, and each of its tokens
is the next one (`Assembly.put`). The steps of a plan put in what the plan draws (`Page.onto_draw`), so the
tree of a builder is made by putting the shape that was drawn into an assembly of all tokens, with what is
left over put into the root (`Stands.finish_eq`).

Only something missing outside of all nodes would be put in at another place, so this is said of pages on
which that does not happen.
-/

set_option autoImplicit false

namespace StarlarkSyntax

/-! ## Shapes put into an assembly -/

namespace Assembly

mutual

/-- Puts in a shape, of which the tokens are the next ones. -/
def put (assembly : Assembly) : Shape → Assembly
  | .token _ => assembly.takeToken
  | .node kind message? children => ((assembly.openNode kind message?).putAll children).close

/-- Puts in several shapes. -/
def putAll (assembly : Assembly) : List Shape → Assembly
  | [] => assembly
  | shape :: shapes => (assembly.put shape).putAll shapes

end

theorem putAll_append (assembly : Assembly) (s t : List Shape) :
    assembly.putAll (s ++ t) = (assembly.putAll s).putAll t := by
  induction s generalizing assembly with
  | nil => rfl
  | cons shape s ih => exact ih (assembly.put shape)

theorem putAll_singleton (assembly : Assembly) (shape : Shape) :
    assembly.putAll [shape] = assembly.put shape := rfl

theorem length_frames_flushWhile (test : Token → Bool) (tokens : List Token) (assembly : Assembly) :
    (flushWhile test tokens assembly).frames.length = assembly.frames.length := by
  induction tokens generalizing assembly with
  | nil => rfl
  | cons token tokens ih =>
      unfold flushWhile
      split
      · rw [ih]
        unfold pushSkipped
        split
        · exact length_frames_push _ _
        · exact length_frames_push _ _
      · rfl

theorem length_frames_flushSkipped (assembly : Assembly) :
    assembly.flushSkipped.frames.length = assembly.frames.length :=
  length_frames_flushWhile _ _ _

theorem length_frames_openNode (kind : NodeKind) (message? : Option String) (assembly : Assembly) :
    (assembly.openNode kind message?).frames.length = assembly.frames.length + 1 := by
  unfold openNode
  dsimp only
  rw [List.length_cons]
  split
  · rfl
  · rw [length_frames_flushSkipped]

theorem length_frames_takeToken (assembly : Assembly) :
    assembly.takeToken.frames.length = assembly.frames.length := by
  rw [← length_frames_flushSkipped assembly]
  unfold takeToken
  dsimp only
  split
  · exact length_frames_push _ _
  · rfl

mutual

/-- As many nodes are open after a shape as before. -/
theorem length_frames_put (assembly : Assembly) (shape : Shape) :
    (assembly.put shape).frames.length = assembly.frames.length := by
  cases shape with
  | token piece => exact length_frames_takeToken assembly
  | node kind message? children =>
      rw [put, length_frames_close, length_frames_putAll, length_frames_openNode]
      rfl

theorem length_frames_putAll (assembly : Assembly) (shapes : List Shape) :
    (assembly.putAll shapes).frames.length = assembly.frames.length := by
  cases shapes with
  | nil => rfl
  | cons shape shapes => rw [putAll, length_frames_putAll, length_frames_put]

end

/-- What is left over at the end opens and closes nothing. -/
theorem length_frames_run (steps : List Step) (assembly : Assembly) :
    (run steps assembly).frames.length = (steps.foldl Assembly.step assembly).frames.length := by
  rcases List.eq_nil_or_concat steps with rfl | ⟨steps, last, rfl⟩
  · rfl
  rw [List.concat_eq_append]
  by_cases finish : last = .finish
  · subst finish
    rw [run_finish, length_frames_close, List.foldl_append]
    have flushed : (if (steps.foldl Assembly.step assembly).frames.length = 1 then
        (steps.foldl Assembly.step assembly).flushAll
        else steps.foldl Assembly.step assembly).frames.length =
          (steps.foldl Assembly.step assembly).frames.length := by
      split
      · exact length_frames_flushWhile _ _ _
      · rfl
    rw [flushed]
    exact (length_frames_close _).symm
  · rw [run_of_last_ne]
    rw [List.getLast?_concat]
    exact fun same => finish (Option.some.inj same)

/-- A node without children for something that is missing. -/
theorem put_missing (message : String) {assembly : Assembly} (inside : assembly.frames ≠ []) :
    assembly.put (.node .error (some message) []) = assembly.step (.error message) := by
  unfold put openNode
  rw [if_neg (by simpa using inside)]
  rfl

end Assembly

/-! ## Pages put into an assembly -/

namespace Page

variable {completion : Nat → Completion} {start : Assembly} {page next result : Page}

/-- What stands on a page, put into an assembly. -/
def onto (completion : Nat → Completion) (start : Assembly) : List Item → List Opened → Assembly
  | items, [] => start.putAll (Bare.shapes (items.map Item.bare))
  | items, opened :: frames =>
    ((onto completion start opened.outside frames).openNode (completion opened.marker).shape.1
      (completion opened.marker).shape.2).putAll (Bare.shapes (items.map Item.bare))

/-- What stands outside of all frames. -/
def outermost : List Item → List Opened → List Item
  | items, [] => items
  | _, opened :: frames => outermost opened.outside frames

theorem onto_add (items : List Item) (frames : List Opened) (item : Item) :
    onto completion start (items ++ [item]) frames =
      (onto completion start items frames).put item.bare.shape := by
  have last : Bare.shapes ((items ++ [item]).map Item.bare) =
      Bare.shapes (items.map Item.bare) ++ [item.bare.shape] := by
    rw [List.map_append, Bare.shapes_append]
    rfl
  cases frames with
  | nil => rw [onto, last, Assembly.putAll_append, Assembly.putAll_singleton, onto]
  | cons opened frames => rw [onto, last, Assembly.putAll_append, Assembly.putAll_singleton, onto]

theorem onto_ne_nil (items : List Item) {frames : List Opened} (inside : frames ≠ []) :
    (onto completion start items frames).frames ≠ [] := by
  cases frames with
  | nil => contradiction
  | cons opened frames =>
      rw [← List.length_pos_iff, onto, Assembly.length_frames_putAll, Assembly.length_frames_openNode]
      exact Nat.succ_pos _

theorem onto_openAll {chain : List Nat}
    (resolved : ∀ marker ∈ chain, completion marker ≠ .unresolved) :
    onto completion start (page.openAll completion chain).items (page.openAll completion chain).frames =
      (chain.map completion).reverse.foldl Assembly.openCompletion
        (onto completion start page.items page.frames) := by
  induction chain with
  | nil => rfl
  | cons marker chain ih =>
      obtain ⟨here, resolved⟩ := List.forall_mem_cons.1 resolved
      rw [List.map_cons, List.reverse_cons, List.foldl_append, ← ih resolved]
      change onto completion start (if completion marker = .abandoned then page.openAll completion chain
        else (page.openAll completion chain).openFrame marker).items (if completion marker = .abandoned
        then page.openAll completion chain else (page.openAll completion chain).openFrame marker).frames =
        Assembly.openCompletion _ (completion marker)
      cases is : completion marker with
      | unresolved => exact absurd is here
      | abandoned => rfl
      | node kind => simp [openFrame, onto, is, Completion.shape, Assembly.openCompletion, Bare.shapes, Assembly.putAll]
      | error message => simp [openFrame, onto, is, Completion.shape, Assembly.openCompletion, Bare.shapes, Assembly.putAll]

/-- What stands outside of all frames stays there. -/
theorem outermost_act {act : Act} (drawn : page.act completion act = some next) :
    outermost page.items page.frames <+: outermost next.items next.frames := by
  have added (items : List Item) (frames : List Opened) (item : Item) :
      outermost items frames <+: outermost (items ++ [item]) frames := by
    cases frames with
    | nil => exact List.prefix_append _ _
    | cons opened frames => exact List.prefix_rfl
  cases act with
  | opening marker wrappers =>
      cases drawn
      generalize marker :: wrappers = chain
      induction chain with
      | nil => exact List.prefix_rfl
      | cons marker chain ih =>
          refine ih.trans ?_
          rw [show page.openAll completion (marker :: chain) = if completion marker = .abandoned
            then page.openAll completion chain else (page.openAll completion chain).openFrame marker from rfl]
          split <;> exact List.prefix_rfl
  | wrapper marker =>
      cases drawn
      exact List.prefix_rfl
  | finish =>
      obtain ⟨marker, outside, frames, found, rfl⟩ := act_finish drawn
      rw [found]
      exact added outside frames _
  | token =>
      obtain ⟨token, rest, -, rfl⟩ := act_token drawn
      exact added page.items page.frames _
  | missing message =>
      cases drawn
      exact added page.items page.frames _

theorem outermost_draw {acts : List Act} (drawn : draw completion acts page = some result) :
    outermost page.items page.frames <+: outermost result.items result.frames := by
  induction acts generalizing page with
  | nil =>
      cases drawn
      exact List.prefix_rfl
  | cons act acts ih =>
      obtain ⟨next, first, rest⟩ := Option.bind_eq_some_iff.1 drawn
      exact (outermost_act first).trans (ih rest)

/-- One more act, unless something is missing outside of all frames. -/
theorem onto_act {act : Act} (drawn : page.act completion act = some next)
    (resolved : ∀ marker ∈ act.chain, completion marker ≠ .unresolved)
    (inside : ∀ message, act = .missing message → page.frames ≠ []) :
    onto completion start next.items next.frames =
      (onto completion start page.items page.frames).step (act.resolved completion) := by
  cases act with
  | opening marker wrappers =>
      cases drawn
      exact onto_openAll resolved
  | wrapper marker =>
      cases drawn
      rfl
  | finish =>
      obtain ⟨marker, outside, frames, found, rfl⟩ := act_finish drawn
      dsimp only
      rw [onto_add, found, onto]
      rfl
  | token =>
      obtain ⟨token, rest, -, rfl⟩ := act_token drawn
      exact onto_add page.items page.frames (.passed token)
  | missing message =>
      cases drawn
      refine (onto_add page.items page.frames (.missing message)).trans ?_
      exact Assembly.put_missing message (onto_ne_nil _ (inside message rfl))

/-- All acts of a page on which nothing is missing outside of all frames. -/
theorem onto_draw {acts : List Act} (drawn : draw completion acts page = some result)
    (resolved : ∀ marker ∈ Act.opened acts, completion marker ≠ .unresolved)
    (inside : ∀ message, .missing message ∉ outermost result.items result.frames) :
    onto completion start result.items result.frames =
      (acts.map (Act.resolved completion)).foldl Assembly.step
        (onto completion start page.items page.frames) := by
  induction acts generalizing page with
  | nil =>
      cases drawn
      rfl
  | cons act acts ih =>
      obtain ⟨next, first, rest⟩ := Option.bind_eq_some_iff.1 drawn
      obtain ⟨here, later⟩ := List.forall_mem_append.1 resolved
      rw [List.map_cons, List.foldl_cons, ih rest later, onto_act first here]
      rintro message rfl none
      refine inside message ((outermost_draw rest).subset ?_)
      cases first
      rw [add, none, outermost]
      simp

end Page

/-! ## The tree of a builder -/

/-- All tokens of a text, with nothing made of them yet. -/
def Assembly.ofLexed (lexed : Lexed) : Assembly where
  tokens := lexed.tokens
  messages := lexed.errors.map LexicalError.message
  stop := (lexed.tokens.getLast?.map (·.span.stop)).getD {}

/-- The tree of the shape that a draft has in the end, if that is a single node. -/
theorem Stands.finish_eq {lexed : Lexed} {plan : Plan} {draft : Draft} {bench : Bench}
    (stands : Stands lexed plan draft bench)
    (follows : Follows (Draft.ofLexed lexed).page plan draft) {marker : Nat} {kind : NodeKind}
    {message? : Option String} {children : List Bare} (closed : draft.page.frames = [])
    (single : draft.page.items = [.made marker kind message? children]) :
    bench.builder.finish = (((Assembly.ofLexed lexed).openNode kind message?).putAll
      (Bare.shapes children)).flushAll.close.root := by
  obtain ⟨next, describes⟩ := stands.describes
  have resolved := follows.settled closed
  have drawn := follows.page
  have fresh := follows.fresh
  rw [Page.markers, closed, List.map_nil] at fresh
  unfold Builder.finish
  dsimp only
  rw [describes.resolve_eq follows.ordered, stands.reads.tokens, stands.reads.messages]
  change (Assembly.run _ (.ofLexed lexed)).root = _
  rcases List.eq_nil_or_concat plan.acts with none | ⟨acts, act, parts⟩
  · rw [none] at drawn
    have items : (Draft.ofLexed lexed).page.items = draft.page.items :=
      congrArg Page.items (Option.some.inj drawn)
    rw [single] at items
    cases items
  rw [List.concat_eq_append] at parts
  rw [parts] at drawn fresh resolved ⊢
  rw [Act.opened_append] at resolved
  obtain ⟨early, -⟩ := List.forall_mem_append.1 resolved
  rw [Page.draw_append] at drawn
  obtain ⟨page, before, last⟩ := Option.bind_eq_some_iff.1 drawn
  rw [Page.draw_cons] at last
  obtain ⟨_, last, ⟨⟩⟩ := Option.bind_eq_some_iff.1 last
  -- Only a marker makes the last thing on the page, so the last act closes its frame.
  have finish : act = .finish := by
    by_contra other
    obtain ⟨item, items, notMade⟩ := Page.items_of_act last fresh.last_plain other
    rw [single] at items
    rcases List.append_eq_singleton_iff.1 items.symm with ⟨-, same⟩ | ⟨-, same⟩ <;> cases same
    cases notMade
  subst finish
  obtain ⟨marker', outside, frames, found, same⟩ := Page.act_finish last
  rw [same] at closed single
  cases frames with
  | cons => contradiction
  | nil =>
      rcases List.append_eq_singleton_iff.1 single with ⟨rfl, made⟩ | ⟨-, made⟩ <;> cases made
      have onto : (acts.map (Act.resolved plan.completion)).foldl Assembly.step (.ofLexed lexed) =
          Page.onto plan.completion (.ofLexed lexed) page.items [⟨marker, []⟩] := by
        rw [← found]
        exact (Page.onto_draw before early (by simp [found, Page.outermost])).symm
      have one : (Page.onto plan.completion (.ofLexed lexed) page.items [⟨marker, []⟩]).frames.length =
          1 := by
        rw [Page.onto, Assembly.length_frames_putAll, Assembly.length_frames_openNode]
        rfl
      rw [List.map_append, List.map_singleton, Act.resolved, Assembly.run_finish, onto, if_pos one]
      rfl

end StarlarkSyntax
