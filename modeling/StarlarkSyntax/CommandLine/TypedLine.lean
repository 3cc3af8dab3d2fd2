import StarlarkSyntax.Text.Cluster
import StarlarkSyntax.Token.Basic
/-!
# Lines as they are typed

A backspace in a typed line is no part of the line. It takes back what was typed before it, as far
as it is still there: not a character but a whole cluster, so that a letter goes together with its
accents. At the beginning of a line there is nothing to take back.

How many bytes each cluster takes is noted in a single byte, so of a cluster of 256 bytes or more
only what the byte says is taken back.

`takeBack_add` says that taking back undoes typing, and `edited_eq_self` that a line without
backspaces is the line that was typed.
-/

set_option autoImplicit false

namespace StarlarkSyntax.CommandLine

/-- The character that takes back what was typed before it. -/
def backspace : Char := '\x08'

/-- A text without the characters at its beginning that take so many bytes in UTF-8. -/
def dropBytes : Nat → List Char → List Char
  | _, [] => []
  | 0, text => text
  | count + 1, c :: text => dropBytes (count + 1 - c.utf8Size) text

/-- A line that is being typed. -/
structure TypedLine where
  /-- What is in the line, last character first. -/
  reversed : List Char := []
  /-- How many bytes can be taken back at a time, last first. -/
  sizes : List UInt8 := []
deriving DecidableEq, Inhabited

namespace TypedLine

/-- Adds a cluster. -/
def add (line : TypedLine) (cluster : List Char) : TypedLine :=
  ⟨cluster.reverse ++ line.reversed, (utf8Length cluster).toUInt8 :: line.sizes⟩

/-- Takes back what was typed last. -/
def takeBack (line : TypedLine) : TypedLine :=
  match line.sizes with
  | size :: sizes => ⟨dropBytes size.toNat line.reversed, sizes⟩
  | [] => line

/-- Takes one more cluster as it is typed. -/
def take (line : TypedLine) (cluster : List Char) : TypedLine :=
  if cluster = [backspace] then line.takeBack else line.add cluster

end TypedLine

/-- What is in a line after its backspaces have taken back what was typed before them. -/
def edited (line : List Char) : List Char :=
  ((Text.clusters line).foldl TypedLine.take {}).reversed.reverse

/-! ## Laws -/

@[simp] theorem dropBytes_zero (text : List Char) : dropBytes 0 text = text := by
  cases text <;> rfl

theorem dropBytes_append (s t : List Char) : dropBytes (utf8Length s) (s ++ t) = t := by
  induction s with
  | nil => simp
  | cons c s ih =>
    have positive := c.utf8Size_pos
    obtain ⟨count, size⟩ : ∃ count, utf8Length (c :: s) = count + 1 :=
      ⟨utf8Length (c :: s) - 1, by simp only [utf8Length_cons]; omega⟩
    have left : count + 1 - c.utf8Size = utf8Length s := by
      rw [← size, utf8Length_cons, Nat.add_sub_cancel_left]
    rw [size, List.cons_append, dropBytes, left, ih]

namespace TypedLine

/-- Taking back undoes typing, for any cluster whose size fits in a byte. -/
theorem takeBack_add (line : TypedLine) {cluster : List Char} (small : utf8Length cluster < 256) :
    (line.add cluster).takeBack = line := by
  have size : (utf8Length cluster).toUInt8.toNat = utf8Length cluster.reverse := by
    rw [utf8Length_reverse]
    exact Nat.mod_eq_of_lt small
  simp only [add, takeBack, size, dropBytes_append]

theorem reversed_foldl_take {clusters : List (List Char)} (kept : [backspace] ∉ clusters)
    (line : TypedLine) :
    (clusters.foldl take line).reversed = clusters.flatten.reverse ++ line.reversed := by
  induction clusters generalizing line with
  | nil => rfl
  | cons cluster clusters ih =>
    rw [List.mem_cons, not_or] at kept
    simp [ih kept.2, take, Ne.symm kept.1, add]

end TypedLine

/-- A line without backspaces is the line that was typed. -/
theorem edited_eq_self {line : List Char} (kept : backspace ∉ line) : edited line = line := by
  have none : [backspace] ∉ Text.clusters line := fun member =>
    kept (Text.mem_of_mem_cluster member List.mem_cons_self)
  simp [edited, TypedLine.reversed_foldl_take none, Text.flatten_clusters]

end StarlarkSyntax.CommandLine
