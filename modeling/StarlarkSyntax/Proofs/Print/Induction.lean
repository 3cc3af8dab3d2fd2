import StarlarkSyntax.Proofs.Print.Expr
/-!
# Induction over expressions

What holds of an expression whenever it holds of the expressions right inside it holds of every
expression.
-/

set_option autoImplicit false

namespace StarlarkSyntax

theorem sizeOf_lt_of_mem_flatMap {α β : Type} [SizeOf α] [SizeOf β] {parts : α → List β}
    {items : List α} {part : β} (smaller : ∀ item part, part ∈ parts item → sizeOf part < sizeOf item)
    (mem : part ∈ items.flatMap parts) : sizeOf part < sizeOf items := by
  obtain ⟨item, mem, mem'⟩ := List.mem_flatMap.1 mem
  have := List.sizeOf_lt_of_mem mem
  have := smaller item part mem'
  omega

theorem sizeOf_lt_of_mem_toList {part : Expr} {part? : Option Expr} (mem : part ∈ part?.toList) :
    sizeOf part < sizeOf part? := by
  rw [Option.mem_toList.1 mem]
  simp

theorem Argument.sizeOf_lt (argument : Argument) (part : Expr) (mem : part ∈ argument.parts) :
    sizeOf part < sizeOf argument := by
  cases argument <;> rw [List.mem_singleton.1 mem] <;> simp only [positional.sizeOf_spec,
    named.sizeOf_spec, star.sizeOf_spec, doubleStar.sizeOf_spec] <;> omega

theorem Parameter.sizeOf_lt (parameter : Parameter) (part : Expr) (mem : part ∈ parameter.parts) :
    sizeOf part < sizeOf parameter := by
  cases parameter with
  | optional name default =>
      rw [List.mem_singleton.1 mem, optional.sizeOf_spec]
      omega
  | _ => cases mem

theorem Bounds.sizeOf_lt (bounds : Bounds) (part : Expr) (mem : part ∈ bounds.parts) :
    sizeOf part < sizeOf bounds := by
  cases bounds with
  | pair start? stop? =>
      rw [pair.sizeOf_spec]
      rcases List.mem_append.1 mem with mem | mem <;> have := sizeOf_lt_of_mem_toList mem <;> omega
  | triple start? stop? step? =>
      rw [triple.sizeOf_spec]
      rcases List.mem_append.1 mem with mem | mem
      · rcases List.mem_append.1 mem with mem | mem <;> have := sizeOf_lt_of_mem_toList mem <;> omega
      · have := sizeOf_lt_of_mem_toList mem
        omega

theorem SliceItem.sizeOf_lt (item : SliceItem) (part : Expr) (mem : part ∈ item.parts) :
    sizeOf part < sizeOf item := by
  cases item with
  | index value =>
      rw [List.mem_singleton.1 mem, index.sizeOf_spec]
      omega
  | bounded bounds =>
      have := bounds.sizeOf_lt part mem
      rw [bounded.sizeOf_spec]
      omega

theorem Entry.sizeOf_lt (entry : Entry) (part : Expr) (mem : part ∈ entry.parts) :
    sizeOf part < sizeOf entry := by
  obtain ⟨key, value⟩ := entry
  rw [mk.sizeOf_spec]
  simp only [parts, List.mem_cons, List.not_mem_nil, or_false] at mem
  rcases mem with rfl | rfl <;> omega

theorem Clause.sizeOf_lt (clause : Clause) (part : Expr) (mem : part ∈ clause.parts) :
    sizeOf part < sizeOf clause := by
  obtain ⟨targets, range, conditions⟩ := clause
  simp only [parts, List.mem_cons] at mem
  rw [mk.sizeOf_spec]
  rcases mem with rfl | rfl | mem
  · omega
  · omega
  · have := List.sizeOf_lt_of_mem mem
    omega

/-- What stands inside an expression is smaller. -/
theorem Expr.sizeOf_lt (expr part : Expr) (mem : part ∈ expr.parts) : sizeOf part < sizeOf expr := by
  cases expr with
  | name | literal => cases mem
  | dotted | parenthesized | signed | negation =>
      simp only [parts, List.mem_singleton] at mem
      simp only [mem, dotted.sizeOf_spec, parenthesized.sizeOf_spec, signed.sizeOf_spec,
        negation.sizeOf_spec]
      omega
  | subscript | power | binary =>
      simp only [parts, List.mem_cons, List.not_mem_nil, or_false] at mem
      simp only [subscript.sizeOf_spec, power.sizeOf_spec, binary.sizeOf_spec]
      rcases mem with rfl | rfl <;> omega
  | conditional =>
      simp only [parts, List.mem_cons, List.not_mem_nil, or_false] at mem
      rw [conditional.sizeOf_spec]
      rcases mem with rfl | rfl | rfl <;> omega
  | tuple elements | list elements =>
      have : sizeOf part < sizeOf elements := List.sizeOf_lt_of_mem mem
      simp only [tuple.sizeOf_spec, list.sizeOf_spec]
      omega
  | set first others =>
      simp only [parts, List.mem_cons] at mem
      rw [set.sizeOf_spec]
      rcases mem with rfl | mem
      · omega
      · have := List.sizeOf_lt_of_mem mem
        omega
  | call function arguments =>
      simp only [parts, List.mem_cons] at mem
      rw [call.sizeOf_spec]
      rcases mem with rfl | mem
      · omega
      · have := sizeOf_lt_of_mem_flatMap Argument.sizeOf_lt mem
        omega
  | lambda parameters body =>
      simp only [parts, List.mem_cons] at mem
      rw [lambda.sizeOf_spec]
      rcases mem with rfl | mem
      · omega
      · have := sizeOf_lt_of_mem_flatMap Parameter.sizeOf_lt mem
        omega
  | dict entries =>
      have := sizeOf_lt_of_mem_flatMap Entry.sizeOf_lt mem
      rw [dict.sizeOf_spec]
      omega
  | slice object before bounds after =>
      simp only [parts, List.cons_append, List.mem_cons, List.mem_append] at mem
      rw [slice.sizeOf_spec]
      rcases mem with rfl | (mem | mem) | mem
      · omega
      · have := List.sizeOf_lt_of_mem mem
        omega
      · have := bounds.sizeOf_lt part mem
        omega
      · have := sizeOf_lt_of_mem_flatMap SliceItem.sizeOf_lt mem
        omega
  | listComprehension element first others =>
      simp only [parts, List.cons_append, List.mem_cons, List.mem_append] at mem
      rw [listComprehension.sizeOf_spec]
      rcases mem with rfl | mem | mem
      · omega
      · have := first.sizeOf_lt part mem
        omega
      · have := sizeOf_lt_of_mem_flatMap Clause.sizeOf_lt mem
        omega
  | dictComprehension entry first others =>
      simp only [parts, List.mem_append] at mem
      rw [dictComprehension.sizeOf_spec]
      rcases mem with (mem | mem) | mem
      · have := entry.sizeOf_lt part mem
        omega
      · have := first.sizeOf_lt part mem
        omega
      · have := sizeOf_lt_of_mem_flatMap Clause.sizeOf_lt mem
        omega

/-- Induction over the expressions right inside an expression. -/
theorem Expr.induction {holds : Expr → Prop}
    (step : ∀ expr : Expr, (∀ part ∈ expr.parts, holds part) → holds expr) (expr : Expr) :
    holds expr :=
  step expr fun part _ => induction step part
termination_by sizeOf expr
decreasing_by exact expr.sizeOf_lt part ‹_›

end StarlarkSyntax
