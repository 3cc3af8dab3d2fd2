import Mathlib.Data.List.DropRight
import Mathlib.Data.Prod.Lex
import Mathlib.Order.WithBot
import StarlarkSyntax.Diagnostic.Pending
/-!
# Diagnostics are given out once and in order

Diagnostics may be added one by one or several at a time, and given out at any time in between. A `Call` is one
of these, and `Pending.run` makes several calls one after another and says what each of them gives out.

What should come of a run is said without following it. `Call.waiting` is what has been added since diagnostics
were last given out, and `Diagnostic.key` is what they are ordered by: the number of the input, then the line and
the column, with what is absent before everything else. `run_given` says that a run keeps to both: at every moment
just those diagnostics wait, each time just those are given out, in the order of their keys, and those of one key
in the order in which they came; and over the whole run nothing is lost or given out twice.
-/

set_option autoImplicit false

namespace StarlarkSyntax

/-! ## The order of diagnostics -/

/-- A place as its line and its column, of which the line counts first. -/
def Caret.key (caret : Caret) : Lex (ℕ × ℕ) := toLex (caret.line, caret.column)

theorem Caret.le_iff_key_le (a b : Caret) : a ≤ b ↔ a.key ≤ b.key := by
  rw [Caret.le_def, Caret.key, Caret.key, Prod.Lex.toLex_le_toLex]

namespace Diagnostic

/-- What diagnostics are ordered by: the input, then the place. -/
def key (diagnostic : Diagnostic) : Lex (WithBot ℕ × WithBot (Lex (ℕ × ℕ))) :=
  toLex (diagnostic.input?.elim ⊥ fun id => .some id.index,
    diagnostic.location?.elim ⊥ fun caret => .some caret.key)

/-- What is absent comes first in the order of keys too. -/
theorem optionLe_iff {α β : Type} [LinearOrder β] (le : α → α → Bool) (key : α → β)
    (same : ∀ a b, le a b = true ↔ key a ≤ key b) (a b : Option α) :
    optionLe le a b = true ↔
      (a.elim ⊥ fun a => (key a : WithBot β)) ≤ b.elim ⊥ fun b => (key b : WithBot β) := by
  cases a with
  | none => simp [optionLe]
  | some a =>
      cases b with
      | none => simp [optionLe]
      | some b => simp [optionLe, same]

theorem comesBefore_iff (a b : Diagnostic) : a.comesBefore b = true ↔ a.key ≤ b.key := by
  have inputs := optionLe_iff (fun x y : InputId => decide (x.index ≤ y.index)) InputId.index
    (fun _ _ => decide_eq_true_iff) a.input? b.input?
  have places := optionLe_iff (fun x y : Caret => decide (x ≤ y)) Caret.key
    (fun x y => decide_eq_true_iff.trans (Caret.le_iff_key_le x y)) a.location? b.location?
  rw [key, key, Prod.Lex.toLex_le_toLex]
  by_cases same : a.input? = b.input?
  · rw [comesBefore, if_pos same, places, same]
    simp
  · have ne : (a.input?.elim ⊥ fun id => WithBot.some id.index) ≠
        b.input?.elim ⊥ fun id => WithBot.some id.index := by
      intro equal
      refine same ?_
      rcases ha : a.input? with _ | ⟨⟨i⟩⟩ <;> rcases hb : b.input? with _ | ⟨⟨j⟩⟩ <;> simp_all
    rw [comesBefore, if_neg same, inputs]
    simp only [ne, false_and, or_false]
    exact ⟨fun le => lt_of_le_of_ne le ne, le_of_lt⟩

end Diagnostic

/-! ## Calls -/

/-- Something that is done with the diagnostics that wait. -/
inductive Call where
  | register (diagnostic : Diagnostic)
  | extend (diagnostics : List Diagnostic)
  | emit
deriving Inhabited

namespace Call

/-- The diagnostics that a call adds. -/
def added : Call → List Diagnostic
  | register diagnostic => [diagnostic]
  | extend diagnostics => diagnostics
  | emit => []

/-- Are diagnostics given out? -/
def isEmit : Call → Bool
  | emit => true
  | _ => false

/-- What has been added since diagnostics were last given out. -/
def waiting (calls : List Call) : List Diagnostic :=
  (calls.rtakeWhile fun call => !call.isEmit).flatMap added

@[simp] theorem waiting_nil : waiting [] = [] := rfl

theorem waiting_concat (calls : List Call) (call : Call) :
    waiting (calls ++ [call]) = if call.isEmit then [] else waiting calls ++ call.added := by
  cases call <;> simp [waiting, isEmit]

end Call

namespace Pending

/-- Makes one call, and answers with what is given out. -/
def call (pending : Pending) : Call → List Diagnostic × Pending
  | .register diagnostic => ([], pending.register diagnostic)
  | .extend diagnostics => ([], pending.extend diagnostics)
  | .emit => pending.emit

/-- Makes several calls when nothing waits yet, and answers with what each of them gives out. -/
def run (calls : List Call) : List (List Diagnostic) × Pending :=
  calls.foldl (fun (given, pending) call =>
    let (out, pending) := pending.call call
    (given ++ [out], pending)) ([], {})

@[simp] theorem run_nil : run [] = ([], {}) := rfl

theorem run_concat (calls : List Call) (call : Call) :
    run (calls ++ [call]) = ((run calls).1 ++ [((run calls).2.call call).1], ((run calls).2.call call).2) := by
  rw [run, List.foldl_append]
  rfl

theorem length_run (calls : List Call) : (run calls).1.length = calls.length := by
  induction calls using List.reverseRecOn with
  | nil => rfl
  | append_singleton calls call ih => simp [run_concat, ih]

/-- What calls have given out stays as it is, whatever calls come after them. -/
theorem run_isPrefix (calls more : List Call) : (run calls).1 <+: (run (calls ++ more)).1 := by
  induction more using List.reverseRecOn with
  | nil => simp
  | append_singleton more call ih =>
      rw [← List.append_assoc, run_concat]
      exact ih.trans (List.prefix_append _ _)

/-! ## What waits, and what is given out -/

/-- What waits is what has been added since diagnostics were last given out. -/
theorem toList_run (calls : List Call) : (run calls).2.diagnostics.toList = Call.waiting calls := by
  induction calls using List.reverseRecOn with
  | nil => rfl
  | append_singleton calls call ih =>
      rw [run_concat, Call.waiting_concat, ← ih]
      cases call with
      | register diagnostic => simp [Pending.call, register, Call.isEmit, Call.added]
      | extend diagnostics => simp [Pending.call, extend, Call.isEmit, Call.added]
      | emit => simp [Pending.call, emit, Call.isEmit]

theorem comesBefore_trans (a b c : Diagnostic) (ab : a.comesBefore b = true) (bc : b.comesBefore c = true) :
    a.comesBefore c = true := by
  rw [Diagnostic.comesBefore_iff] at *
  exact ab.trans bc

theorem comesBefore_total (a b : Diagnostic) : (a.comesBefore b || b.comesBefore a) = true := by
  rw [Bool.or_eq_true, Diagnostic.comesBefore_iff, Diagnostic.comesBefore_iff]
  exact le_total a.key b.key

/-- Just what waits is given out. -/
theorem perm_emit (pending : Pending) : pending.emit.1.Perm pending.diagnostics.toList :=
  List.mergeSort_perm _ _

theorem pairwise_emit (pending : Pending) : pending.emit.1.Pairwise fun a b => a.key ≤ b.key := by
  refine (List.pairwise_mergeSort comesBefore_trans comesBefore_total _).imp ?_
  intro a b le
  exact (Diagnostic.comesBefore_iff a b).1 le

/-- Diagnostics of one key are given out in the order in which they came. -/
theorem filter_emit (pending : Pending) (key : Lex (WithBot ℕ × WithBot (Lex (ℕ × ℕ)))) :
    pending.emit.1.filter (·.key = key) = pending.diagnostics.toList.filter (·.key = key) := by
  have ties : (pending.diagnostics.toList.filter (·.key = key)).Pairwise fun a b => a.comesBefore b = true := by
    refine List.pairwise_of_forall_mem_list ?_
    intro a memA b memB
    have keyA := of_decide_eq_true (List.mem_filter.1 memA).2
    have keyB := of_decide_eq_true (List.mem_filter.1 memB).2
    exact (Diagnostic.comesBefore_iff a b).2 (keyA.trans keyB.symm).le
  have kept : (pending.diagnostics.toList.filter (·.key = key)).Sublist
      (pending.emit.1.filter (·.key = key)) := by
    have sublist := List.sublist_mergeSort comesBefore_trans comesBefore_total ties List.filter_sublist
    simpa [emit, List.filter_filter] using sublist.filter (·.key = key)
  exact (kept.eq_of_length ((perm_emit pending).filter _).length_eq.symm).symm

/-- Over a whole run, each diagnostic that was added has been given out or waits, as often as it was added. -/
theorem perm_run (calls : List Call) :
    ((run calls).1.flatten ++ Call.waiting calls).Perm (calls.flatMap Call.added) := by
  induction calls using List.reverseRecOn with
  | nil => simp
  | append_singleton calls call ih =>
      rw [run_concat, Call.waiting_concat, List.flatten_concat, List.flatMap_append, List.flatMap_singleton]
      cases call with
      | register diagnostic | extend diagnostics =>
          simpa [Pending.call, Call.isEmit] using ih.append_right _
      | emit =>
          have given := perm_emit (run calls).2
          rw [toList_run] at given
          simpa [Pending.call, Call.isEmit, Call.added] using (given.append_left _).trans ih

/-- Whatever calls have been made: what waits is what has been added since diagnostics were last given out, and
the length and the look for errors are about just that; if diagnostics are given out then, those are given out,
each once, in the order of their inputs and places and, where these are the same, as they came; none is left; and
all that was ever added has been given out or waits. -/
theorem run_given (calls more : List Call) :
    (run calls).2.length = (Call.waiting calls).length ∧
    ((run calls).2.isEmpty = true ↔ Call.waiting calls = []) ∧
    ((run calls).2.hasErrors = true ↔ ∃ diagnostic ∈ Call.waiting calls, diagnostic.level = .error) ∧
    (∃ given, (run (calls ++ .emit :: more)).1[calls.length]? = some given ∧
      given.Perm (Call.waiting calls) ∧ given.Pairwise (fun a b => a.key ≤ b.key) ∧
      ∀ key, given.filter (·.key = key) = (Call.waiting calls).filter (·.key = key)) ∧
    (run (calls ++ [.emit])).2 = {} ∧
    ((run calls).1.flatten ++ Call.waiting calls).Perm (calls.flatMap Call.added) := by
  have waits := toList_run calls
  refine ⟨?_, ?_, ?_, ⟨(run calls).2.emit.1, ?_, ?_, pairwise_emit _, ?_⟩, ?_, perm_run calls⟩
  · simp [length, ← waits]
  · simp [isEmpty, ← waits]
  · rw [hasErrors, ← Array.any_toList, waits]
    simp
  · have stays := run_isPrefix (calls ++ [.emit]) more
    rw [run_concat, List.append_assoc] at stays
    obtain ⟨later, is⟩ := stays
    rw [← List.singleton_append, ← is, ← length_run]
    simp [Pending.call]
  · exact waits ▸ perm_emit _
  · exact fun key => waits ▸ filter_emit _ key
  · rw [run_concat]
    rfl

end Pending
end StarlarkSyntax
