import StarlarkSyntax.Diagnostic.OfErrors
import StarlarkSyntax.Diagnostic.Pending
import StarlarkSyntax.Proofs.Spans
/-!
# Errors in the order of the text

The errors of a text are listed as the walk over the tree comes to their nodes, each node before its
children. In a tree that stands in its place no node starts before one that the walk has come to already
(`Fits.ascending`), whether the nodes are empty or not. So the errors are in the order of the text, and
giving their diagnostics out in that order leaves them as they are (`emit_diagnostics`).
-/

set_option autoImplicit false

namespace StarlarkSyntax

/-- Carets in order, none of them before a first one or after a last one. -/
structure Caret.Ascending (first : Caret) (carets : List Caret) (last : Caret) : Prop where
  sorted : carets.Pairwise (· ≤ ·)
  inside : ∀ caret ∈ carets, first ≤ caret ∧ caret ≤ last

namespace Caret.Ascending

variable {first middle last : Caret} {carets more : List Caret}

theorem nil : Ascending first [] last := ⟨.nil, nofun⟩

theorem cons (le : first ≤ last) (ascending : Ascending first carets last) :
    Ascending first (first :: carets) last where
  sorted := .cons (fun caret mem => (ascending.inside caret mem).1) ascending.sorted
  inside := List.forall_mem_cons.2 ⟨⟨Caret.le_refl first, le⟩, ascending.inside⟩

theorem append (le : first ≤ middle) (before : Ascending first carets middle) (le' : middle ≤ last)
    (after : Ascending middle more last) : Ascending first (carets ++ more) last where
  sorted := List.pairwise_append.2 ⟨before.sorted, after.sorted, fun caret mem caret' mem' =>
    Caret.le_trans (before.inside caret mem).2 (after.inside caret' mem').1⟩
  inside := List.forall_mem_append.2
    ⟨fun caret mem => (before.inside caret mem).imp_right (Caret.le_trans · le'),
      fun caret mem => (after.inside caret mem).imp_left (Caret.le_trans le)⟩

end Caret.Ascending

namespace Tree

open Caret (Ascending)

theorem Fits.le {start stop : Caret} {tree : Tree} (fits : Fits start tree stop) : start ≤ stop :=
  Fits.stop_eq tree fits ▸ Caret.le_advanceOver _ _

theorem FitsAll.le {start stop : Caret} {trees : List Tree} (fits : FitsAll start trees stop) :
    start ≤ stop :=
  FitsAll.stop_eq trees fits ▸ Caret.le_advanceOver _ _

mutual

/-- The walk over a tree comes to its parts in the order in which they start. -/
theorem Fits.ascending (depth : Nat) (tree : Tree) {start stop : Caret} (fits : Fits start tree stop) :
    Ascending start ((preorderFrom depth tree).map (·.2.span.start)) stop := by
  have le := fits.le
  cases tree with
  | leaf token =>
      rw [preorderFrom_leaf]
      exact fits.span.1 ▸ .cons (fits.span.1 ▸ le) .nil
  | node kind message? span children =>
      rw [preorderFrom_node, List.map_cons, fits.span.1]
      exact .cons le (FitsAll.ascending (depth + 1) children fits.2.2)

theorem FitsAll.ascending (depth : Nat) (trees : List Tree) {start stop : Caret}
    (fits : FitsAll start trees stop) :
    Ascending start ((preorderOfAll depth trees).map (·.2.span.start)) stop := by
  cases trees with
  | nil =>
      rw [preorderOfAll_nil]
      exact .nil
  | cons tree trees =>
      rw [preorderOfAll_cons, List.map_append]
      exact .append fits.1.le (Fits.ascending depth tree fits.1) fits.2.le
        (FitsAll.ascending depth trees fits.2)

end

/-- The nodes of a tree that stands in its place are in the order in which they start. -/
theorem Fits.sorted_nodes {tree : Tree} {start stop : Caret} (fits : Fits start tree stop) :
    tree.nodes.Pairwise fun node later => node.span.start ≤ later.span.start := by
  have sorted := List.pairwise_map.1 (fits.ascending 0 tree).sorted
  refine List.pairwise_filterMap.2 (sorted.imp fun {part part'} le node is later is' => ?_)
  obtain ⟨-, ⟨⟩⟩ := Option.ite_none_right_eq_some.1 is
  obtain ⟨-, ⟨⟩⟩ := Option.ite_none_right_eq_some.1 is'
  exact le

/-- So are its errors, which have the places of their nodes. -/
theorem Fits.sorted_errors {tree : Tree} {start stop : Caret} (fits : Fits start tree stop) :
    tree.errors.Pairwise fun error later => error.2.start ≤ later.2.start := by
  refine List.pairwise_filterMap.2 (fits.sorted_nodes.imp fun le error is later is' => ?_)
  obtain ⟨message, -, rfl⟩ := Option.map_eq_some_iff.1 is
  obtain ⟨message', -, rfl⟩ := Option.map_eq_some_iff.1 is'
  exact le

end Tree

/-- The tree of a text stands where the text does. -/
theorem Rooted.fits {lexed : Lexed} {shapes : List Shape} {tree : Tree} {stop : Caret}
    (rooted : Rooted lexed shapes tree) (tiles : Token.Tiles {} lexed.tokens stop) :
    ∃ last, Tree.Fits {} tree last := by
  obtain ⟨dressed, skips, nothing⟩ := rooted
  have ends : (Assembly.ofLexed lexed).stop = stop := tiles.getLast?_stop
  rw [← ends] at tiles
  obtain ⟨middle, first, tiles⟩ := AllDressed.fits _ dressed tiles
  obtain ⟨last, rest, tiles⟩ := skips.fits tiles
  refine ⟨last, (first.append rest).ofChildren .file none fun none => ?_⟩
  have fits := first.append rest
  rw [nothing] at tiles
  rw [none] at fits
  exact tiles.trans fits

/-- Diagnostics of one input that are in the order of their places are given out in that order. -/
theorem Pending.emit_extend {diagnostics : List Diagnostic}
    (sorted : diagnostics.Pairwise fun diagnostic later => diagnostic.comesBefore later = true) :
    (extend {} diagnostics).emit = (diagnostics, {}) := by
  have waiting : (extend {} diagnostics).diagnostics.toList = diagnostics := by simp [extend]
  rw [emit, waiting, List.mergeSort_of_pairwise sorted]

/-- The errors of every text are in the order of the text, so they are given out just as they are. -/
theorem emit_diagnostics (text : List Char) (id : InputId) :
    ((parse text).errors.map (·.span.start)).Pairwise (· ≤ ·) ∧
      (Pending.extend {} ((parse text).diagnostics id)).emit = ((parse text).diagnostics id, {}) := by
  obtain ⟨made, rooted, -⟩ := exists_rooted text
  obtain ⟨last, fits⟩ := rooted.fits (tiles_tokenize text)
  have sorted : (parse text).errors.Pairwise fun error later => error.span.start ≤ later.span.start := by
    rw [Parse.errors, List.pairwise_map]
    exact fits.sorted_errors
  refine ⟨List.pairwise_map.2 sorted, Pending.emit_extend ?_⟩
  rw [Parse.diagnostics, List.pairwise_map]
  refine sorted.imp fun {error later} le => ?_
  have same : (error.toDiagnostic id).input? = (later.toDiagnostic id).input? := rfl
  rw [Diagnostic.comesBefore, if_pos same]
  exact decide_eq_true le

end StarlarkSyntax
