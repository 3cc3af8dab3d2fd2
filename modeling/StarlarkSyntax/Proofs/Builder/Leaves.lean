import StarlarkSyntax.Builder.Assembly
/-!
# What is put into a tree

Making a tree moves tokens from the list of those that are left into the tree, one after another and
each exactly once: `placed` is what is in the tree so far, and `placed ++ tokens` never changes
(`whole`). This holds for any steps at all, whether or not they open and close nodes in pairs,
because what is left at the end is put in last. So a tree has exactly the tokens of its builder for
leaves (`leaves_finish`).

The root is the file whenever the first event begins it: nothing stands outside the first node, or
else a file is put around everything.
-/

set_option autoImplicit false

namespace StarlarkSyntax.Assembly

/-! ## The tokens -/

/-- The tokens that are in the tree, in order: those outside all open nodes, and then those in the
open nodes from the outermost to the innermost. -/
def placed (assembly : Assembly) : List Token :=
  Tree.leavesOfAll assembly.roots.reverse ++
    assembly.frames.reverse.flatMap fun frame => Tree.leavesOfAll frame.children.reverse

/-- The tokens that are in the tree and those that are left. -/
def whole (assembly : Assembly) : List Token :=
  assembly.placed ++ assembly.tokens

@[simp] theorem tokens_push (tree : Tree) (assembly : Assembly) :
    (assembly.push tree).tokens = assembly.tokens := by
  unfold push
  split <;> rfl

@[simp] theorem placed_push (tree : Tree) (assembly : Assembly) :
    (assembly.push tree).placed = assembly.placed ++ tree.leaves := by
  obtain ⟨tokens, messages, frames, roots, stop⟩ := assembly
  cases frames <;> simp [push, placed]

@[simp] theorem placed_pushSkipped (token : Token) (assembly : Assembly) :
    (assembly.pushSkipped token).placed = assembly.placed ++ [token] := by
  unfold pushSkipped
  split
  · rw [placed_push]
    simp [placed]
  · simp

/-- The tokens that are passed in are those that are left. -/
theorem whole_flushWhile (test : Token → Bool) (tokens : List Token) (assembly : Assembly) :
    (flushWhile test tokens assembly).whole = assembly.placed ++ tokens := by
  induction tokens generalizing assembly with
  | nil => simp [flushWhile, whole, placed]
  | cons token tokens ih =>
      unfold flushWhile
      split
      · rw [ih, placed_pushSkipped, List.append_assoc, List.singleton_append]
      · rfl

theorem whole_flushSkipped (assembly : Assembly) : assembly.flushSkipped.whole = assembly.whole :=
  whole_flushWhile _ _ _

theorem whole_flushAll (assembly : Assembly) : assembly.flushAll.whole = assembly.whole :=
  whole_flushWhile _ _ _

theorem tokens_flushWhile_true (tokens : List Token) (assembly : Assembly) :
    (flushWhile (fun _ => true) tokens assembly).tokens = [] := by
  induction tokens generalizing assembly with
  | nil => rfl
  | cons token tokens ih => exact ih _

theorem whole_push_missing (message : String) (caret : Caret) (assembly : Assembly) :
    (assembly.push (.missing message caret)).whole = assembly.whole := by
  simp [whole, Tree.missing]

theorem whole_openNode (kind : NodeKind) (message? : Option String) (assembly : Assembly) :
    (assembly.openNode kind message?).whole = assembly.whole := by
  have opened (assembly : Assembly) :
      whole { assembly with frames := ⟨kind, message?, []⟩ :: assembly.frames } =
        assembly.whole := by
    simp [whole, placed]
  unfold openNode
  rw [opened]
  split
  · rfl
  · exact whole_flushSkipped assembly

theorem whole_openCompletion (assembly : Assembly) (completion : Completion) :
    (assembly.openCompletion completion).whole = assembly.whole := by
  cases completion with
  | unresolved | abandoned => rfl
  | node kind => exact whole_openNode kind none assembly
  | error message => exact whole_openNode .error (some message) assembly

theorem whole_close (assembly : Assembly) : assembly.close.whole = assembly.whole := by
  obtain ⟨tokens, messages, frames, roots, stop⟩ := assembly
  cases frames with
  | nil => rfl
  | cons frame frames =>
      simp only [close, whole, placed_push, tokens_push]
      simp [placed]

theorem whole_takeToken (assembly : Assembly) : assembly.takeToken.whole = assembly.whole := by
  refine Eq.trans ?_ (whole_flushSkipped assembly)
  unfold takeToken
  cases left : assembly.flushSkipped.tokens with
  | nil => simp [left]
  | cons token tokens =>
      simp only [left, whole, placed_push, tokens_push]
      simp [placed]

theorem whole_step (assembly : Assembly) (step : Step) :
    (assembly.step step).whole = assembly.whole := by
  cases step with
  | opening completions =>
      change (completions.foldl openCompletion assembly).whole = _
      induction completions generalizing assembly with
      | nil => rfl
      | cons completion completions ih => exact (ih _).trans (whole_openCompletion _ _)
  | finish => exact whole_close assembly
  | token => exact whole_takeToken assembly
  | error message => exact (whole_push_missing _ _ _).trans (whole_flushSkipped assembly)

theorem whole_run (steps : List Step) (assembly : Assembly) :
    (run steps assembly).whole = assembly.whole := by
  fun_induction run steps assembly with
  | case1 assembly => rfl
  | case2 assembly =>
      rw [whole_close]
      split
      · exact whole_flushAll assembly
      · rfl
  | case3 step steps assembly _ ih => rw [ih, whole_step]

theorem whole_closeAll (frames : List Frame) (assembly : Assembly) :
    (closeAll frames assembly).whole = assembly.whole := by
  induction frames generalizing assembly with
  | nil => rfl
  | cons frame frames ih => exact (ih _).trans (whole_close _)

/-! ## The end -/

theorem length_frames_push (tree : Tree) (assembly : Assembly) :
    (assembly.push tree).frames.length = assembly.frames.length := by
  unfold push
  split <;> rename_i frames <;> simp [frames]

theorem length_frames_close (assembly : Assembly) :
    assembly.close.frames.length = assembly.frames.length - 1 := by
  unfold close
  split <;> rename_i frames
  · simp [length_frames_push, frames]
  · simp [frames]

/-- As many nodes are closed as are open. -/
theorem frames_closeAll (frames : List Frame) (assembly : Assembly)
    (same : assembly.frames.length = frames.length) : (closeAll frames assembly).frames = [] := by
  induction frames generalizing assembly with
  | nil => exact List.length_eq_zero_iff.1 same
  | cons frame frames ih =>
      refine ih _ ?_
      rw [length_frames_close, same]
      rfl

theorem frames_pushSkipped (token : Token) (assembly : Assembly) (closed : assembly.frames = []) :
    (assembly.pushSkipped token).frames = [] := by
  unfold pushSkipped
  split <;> simp [push, closed]

theorem frames_flushWhile (test : Token → Bool) (tokens : List Token) (assembly : Assembly)
    (closed : assembly.frames = []) : (flushWhile test tokens assembly).frames = [] := by
  induction tokens generalizing assembly with
  | nil => exact closed
  | cons token tokens ih =>
      unfold flushWhile
      split
      · exact ih _ (frames_pushSkipped token assembly closed)
      · exact closed

/-- All the tokens are in the root. -/
theorem leaves_root (assembly : Assembly) : assembly.root.leaves = assembly.whole := by
  let last := (closeAll assembly.frames assembly).flushAll
  have closed : last.frames = [] :=
    frames_flushWhile _ _ _ (frames_closeAll assembly.frames assembly rfl)
  have empty : last.tokens = [] := tokens_flushWhile_true _ _
  have same : last.whole = assembly.whole := (whole_flushAll _).trans (whole_closeAll _ _)
  have roots : last.whole = Tree.leavesOfAll last.roots.reverse := by
    simp [whole, placed, closed, empty]
  rw [← same, roots, root]
  split
  · rename_i tree only
    rw [show last.roots = [tree] from only]
    split <;> simp
  · simp [last]

/-! ## The root -/

/-- The kind of the first thing that stands in no node, which may still be open. -/
def firstKind? (assembly : Assembly) : Option NodeKind :=
  match assembly.roots.getLast? with
  | some tree => tree.kind?
  | none => assembly.frames.getLast?.map Frame.kind

section First

variable {assembly : Assembly} {kind : NodeKind}

/-- Once something stands first, nothing comes before it. -/
theorem firstKind?_push (tree : Tree) (first : assembly.firstKind? = some kind) :
    (assembly.push tree).firstKind? = some kind := by
  obtain ⟨tokens, messages, frames, roots, stop⟩ := assembly
  cases frames with
  | nil =>
      cases roots with
      | nil => simp [firstKind?] at first
      | cons root roots => simpa [push, firstKind?, List.getLast?_cons_cons] using first
  | cons frame frames =>
      cases frames with
      | nil => cases found : roots.getLast? <;> simp_all [push, firstKind?]
      | cons outer frames => simpa [push, firstKind?, List.getLast?_cons_cons] using first

theorem firstKind?_pushSkipped (token : Token) (first : assembly.firstKind? = some kind) :
    (assembly.pushSkipped token).firstKind? = some kind := by
  unfold pushSkipped
  split
  · exact firstKind?_push _ first
  · exact firstKind?_push _ first

theorem firstKind?_flushWhile (test : Token → Bool) (tokens : List Token)
    (first : assembly.firstKind? = some kind) :
    (flushWhile test tokens assembly).firstKind? = some kind := by
  induction tokens generalizing assembly with
  | nil => exact first
  | cons token tokens ih =>
      unfold flushWhile
      split
      · exact ih (firstKind?_pushSkipped token first)
      · exact first

theorem firstKind?_openFrame (frame : Frame) (first : assembly.firstKind? = some kind) :
    firstKind? { assembly with frames := frame :: assembly.frames } = some kind := by
  obtain ⟨tokens, messages, frames, roots, stop⟩ := assembly
  cases frames with
  | nil => cases found : roots.getLast? <;> simp_all [firstKind?]
  | cons outer frames => simpa [firstKind?, List.getLast?_cons_cons] using first

theorem firstKind?_openCompletion (completion : Completion)
    (first : assembly.firstKind? = some kind) :
    (assembly.openCompletion completion).firstKind? = some kind := by
  have opened (node : NodeKind) (message? : Option String) :
      (assembly.openNode node message?).firstKind? = some kind := by
    refine firstKind?_openFrame _ ?_
    split
    · exact first
    · exact firstKind?_flushWhile _ _ first
  cases completion with
  | unresolved | abandoned => exact first
  | node _ => exact opened _ _
  | error _ => exact opened _ _

theorem firstKind?_close (first : assembly.firstKind? = some kind) :
    assembly.close.firstKind? = some kind := by
  obtain ⟨tokens, messages, frames, roots, stop⟩ := assembly
  cases frames with
  | nil => exact first
  | cons frame frames =>
      cases frames with
      | nil =>
          cases roots with
          | nil => simpa [close, push, firstKind?, Tree.ofChildren, Tree.kind?] using first
          | cons root roots =>
              obtain ⟨last, found⟩ : ∃ last, (root :: roots).getLast? = some last :=
                ⟨_, List.getLast?_eq_some_getLast (List.cons_ne_nil _ _)⟩
              simpa [close, push, firstKind?, List.getLast?_cons_cons, found] using first
      | cons outer frames =>
          refine firstKind?_push _ ?_
          simpa [firstKind?, List.getLast?_cons_cons] using first

theorem firstKind?_step (step : Step) (first : assembly.firstKind? = some kind) :
    (assembly.step step).firstKind? = some kind := by
  have flushed : assembly.flushSkipped.firstKind? = some kind := firstKind?_flushWhile _ _ first
  cases step with
  | opening completions =>
      change (completions.foldl openCompletion assembly).firstKind? = _
      clear flushed
      induction completions generalizing assembly with
      | nil => exact first
      | cons completion completions ih => exact ih (firstKind?_openCompletion completion first)
  | finish => exact firstKind?_close first
  | token =>
      change assembly.takeToken.firstKind? = _
      unfold takeToken
      dsimp only
      split
      · exact firstKind?_push _ flushed
      · exact flushed
  | error message => exact firstKind?_push _ flushed

theorem firstKind?_run (steps : List Step) (first : assembly.firstKind? = some kind) :
    (run steps assembly).firstKind? = some kind := by
  fun_induction run steps assembly with
  | case1 assembly => exact first
  | case2 assembly =>
      refine firstKind?_close ?_
      split
      · exact firstKind?_flushWhile _ _ first
      · exact first
  | case3 step steps assembly _ ih => exact ih (firstKind?_step step first)

theorem firstKind?_closeAll (frames : List Frame) (first : assembly.firstKind? = some kind) :
    (closeAll frames assembly).firstKind? = some kind := by
  induction frames generalizing assembly with
  | nil => exact first
  | cons frame frames ih => exact ih (firstKind?_close first)

theorem kind?_root (first : assembly.firstKind? = some .file) :
    assembly.root.kind? = some .file := by
  let last := (closeAll assembly.frames assembly).flushAll
  have closed : last.frames = [] :=
    frames_flushWhile _ _ _ (frames_closeAll assembly.frames assembly rfl)
  have first : last.firstKind? = some .file :=
    firstKind?_flushWhile _ _ (firstKind?_closeAll assembly.frames first)
  rw [root]
  split
  · rename_i tree only
    split
    · simpa [firstKind?, last, only] using first
    · rfl
  · rfl

end First

end Assembly

theorem Builder.leaves_finish (builder : Builder) : builder.finish.leaves = builder.tokens := by
  unfold finish
  rw [Assembly.leaves_root, Assembly.whole_run]
  simp [Assembly.whole, Assembly.placed]

theorem Step.unchain_none (fuel : Nat) (events : Array Event) (chain : List Completion) :
    unchain fuel none events chain = (chain, events) := by
  cases fuel <;> rfl

/-- Steps are only added. -/
theorem Step.prefix_resolveFrom (count index : Nat) (events : Array Event) (steps : Array Step) :
    steps.toList <+: (resolveFrom count index events steps).toList := by
  have added (steps : Array Step) (step : Step) : steps.toList <+: (steps.push step).toList := by
    simp
  fun_induction resolveFrom count index events steps with
  | case1 | case6 => exact List.prefix_refl _
  | case2 | case3 | case4 | case5 => exact (added _ _).trans (by assumption)

/-- The root is a file if the first event begins one. -/
theorem Builder.kind?_finish {builder : Builder}
    (first : builder.events[0]? = some (.start (.node .file) none)) :
    builder.finish.kind? = some .file := by
  have inside : 0 < builder.events.size := (Array.getElem?_eq_some_iff.1 first).1
  obtain ⟨count, size⟩ : ∃ count, builder.events.size = count + 1 :=
    ⟨_, (Nat.sub_add_cancel inside).symm⟩
  have steps : [.opening [.node .file]] <+: Step.resolve builder.events := by
    unfold Step.resolve
    rw [size, Step.resolveFrom, first]
    simp only [Step.unchain_none]
    exact Step.prefix_resolveFrom count 1 _ (#[].push (.opening [.node .file]))
  obtain ⟨more, steps⟩ := steps
  unfold finish
  rw [← steps]
  refine Assembly.kind?_root ?_
  cases more with
  | nil => rfl
  | cons step more =>
      change (Assembly.run (step :: more) _).firstKind? = _
      exact Assembly.firstKind?_run _ rfl

end StarlarkSyntax
