import StarlarkSyntax.Proofs.Builder.Put
/-!
# The tree made with its assertions

The tree is made of the events of a builder in the belief that all beginnings have been resolved and
that all nodes have been closed. `Checked.finish` looks whether they have. Both are the case for the
builder of a bench that stands for a draft on which no frame is open (`finish_eq_some`): its plan has
resolved everything that begins, and its page has as many frames as the assembly has open nodes.
-/

set_option autoImplicit false

namespace StarlarkSyntax

namespace Checked

/-! ## Making the tree -/

/-- Opens what a beginning has turned out to be, which has to be known. -/
def openCompletion (assembly : Assembly) (completion : Completion) : Option Assembly :=
  if completion = .unresolved then none else some (assembly.openCompletion completion)

/-- Makes one step. -/
def step (assembly : Assembly) : Step → Option Assembly
  | .opening completions => completions.foldlM openCompletion assembly
  | step => some (assembly.step step)

/-- Makes all the steps. -/
def run : List Step → Assembly → Option Assembly
  | [], assembly => some assembly
  | [.finish], assembly =>
    some (if assembly.frames.length = 1 then assembly.flushAll else assembly).close
  | first :: steps, assembly => do run steps (← step assembly first)

/-- The tree that a builder describes, in which no node may be left open. -/
def finish (builder : Builder) : Option Tree := do
  let stop := (builder.tokens.getLast?.map (·.span.stop)).getD {}
  let assembly ← run (Step.resolve builder.events)
    { tokens := builder.tokens, messages := builder.messages, stop }
  if assembly.frames.isEmpty then some assembly.root else none

/-! ## Everything has been resolved -/

theorem foldlM_openCompletion_eq {completions : List Completion}
    (resolved : .unresolved ∉ completions) (assembly : Assembly) :
    completions.foldlM openCompletion assembly =
      some (completions.foldl Assembly.openCompletion assembly) := by
  induction completions generalizing assembly with
  | nil => rfl
  | cons completion completions ih =>
      rw [List.mem_cons, not_or] at resolved
      rw [List.foldlM_cons, openCompletion, if_neg (Ne.symm resolved.1)]
      exact ih resolved.2 _

theorem step_eq {step : Step}
    (resolved : ∀ completions, step = .opening completions → .unresolved ∉ completions)
    (assembly : Assembly) : Checked.step assembly step = some (assembly.step step) := by
  cases step with
  | opening completions => exact foldlM_openCompletion_eq (resolved completions rfl) assembly
  | finish | token | error => rfl

theorem run_eq {steps : List Step}
    (resolved : ∀ completions, .opening completions ∈ steps → .unresolved ∉ completions)
    (assembly : Assembly) : run steps assembly = some (Assembly.run steps assembly) := by
  induction steps generalizing assembly with
  | nil => rfl
  | cons first steps ih =>
      have here (assembly : Assembly) : Checked.step assembly first = some (assembly.step first) :=
        step_eq (fun completions same => resolved completions (same ▸ List.mem_cons_self)) assembly
      have rest := ih fun completions mem => resolved completions (List.mem_cons_of_mem _ mem)
      by_cases last : first = .finish ∧ steps = []
      · obtain ⟨rfl, rfl⟩ := last
        rfl
      · rw [run, Assembly.run, here]
        · exact rest _
        · exact fun finish none => last ⟨finish, none⟩
        · exact fun finish none => last ⟨finish, none⟩

end Checked

/-- What an act opens has been resolved if everything has that begins. -/
theorem Act.resolved_of_opening {completion : Nat → Completion} {acts : List Act}
    (resolved : ∀ marker ∈ opened acts, completion marker ≠ .unresolved)
    {completions : List Completion}
    (stepped : .opening completions ∈ acts.map (Act.resolved completion)) :
    .unresolved ∉ completions := by
  obtain ⟨act, mem, same⟩ := List.mem_map.1 stepped
  cases act with
  | opening marker wrappers =>
      cases same
      intro unresolved
      obtain ⟨other, begun, is⟩ := List.mem_map.1 (List.mem_reverse.1 unresolved)
      have opens : other ∈ (Act.opening marker wrappers).chain := begun
      exact resolved other (mem_opened_of_mem mem opens) is
  | wrapper marker =>
      cases same
      simp
  | finish | token | missing => cases same

/-- No assertion fails when the tree of a draft is made on which no frame is open. -/
theorem Stands.finish_eq_some {lexed : Lexed} {plan : Plan} {draft : Draft} {bench : Bench}
    (stands : Stands lexed plan draft bench)
    (follows : Follows (Draft.ofLexed lexed).page plan draft) (closed : draft.page.frames = []) :
    Checked.finish bench.builder = some bench.builder.finish := by
  obtain ⟨next, describes⟩ := stands.describes
  have resolved := follows.settled closed
  have start : Assembly.Shows plan.completion (.ofLexed lexed) (Draft.ofLexed lexed).page :=
    ⟨rfl, rfl, nofun, rfl⟩
  have solid : (Assembly.ofLexed lexed).Solid := fun _ => rfl
  obtain ⟨shown, -⟩ := start.steps solid follows.page resolved
  have none : (Assembly.run (plan.acts.map (Act.resolved plan.completion))
      (.ofLexed lexed)).frames = [] := by
    refine List.length_eq_zero_iff.1 ?_
    rw [Assembly.length_frames_run, shown.length_frames, closed]
    rfl
  rw [Checked.finish, Builder.finish, describes.resolve_eq follows.ordered, stands.reads.tokens, stands.reads.messages]
  change (Checked.run _ (.ofLexed lexed)).bind _ = some (Assembly.run _ (.ofLexed lexed)).root
  rw [Checked.run_eq (fun _ => Act.resolved_of_opening resolved), Option.bind_some, none]
  rfl

end StarlarkSyntax
