import StarlarkSyntax.Proofs.Builder.Draft
import StarlarkSyntax.Proofs.Builder.Trail
/-!
# What markers stand for among the events

What has been given out by a builder is about places among its events. A marker stands at its own beginning,
a finished node where it begins, and for both the cursor is known there (`Held.Stands`). Two markers never
have a place in common, so the beginning of one can be taken out without the other (`Holds`). All of this is
kept when events are added (`Holds.append`), when some of what is held is resolved (`Holds.become`), and when
events are taken back with everything that was made after them (`Holds.before`).
-/

set_option autoImplicit false

namespace StarlarkSyntax

open Event (anyStart)

namespace Held

/-- What is left of it when everything from an index on is taken back. -/
def before (length : Nat) : Held → Held
  | marker made => if made.position < length then .marker made else .gone
  | completed made => if made.start < length then .completed made else .gone
  | gone => .gone

/-- The places among the events that it is about. -/
def indices : Held → List Nat
  | marker made => [made.start, made.position]
  | completed made => [made.start]
  | gone => []

/-- It stands where it says, and its cursor is where the tokens before it lead. -/
def Stands (trail : List Event) : Held → Prop
  | marker made => trail[made.position]? = some anyStart ∧ made.start ≤ made.position ∧
      (trail.take made.start).count .token = made.cursor
  | completed made => made.start < trail.length ∧ (trail.take made.start).count .token = made.cursor
  | gone => True

variable {trail : List Event} {held : Held}

theorem Stands.lt_length (stands : held.Stands trail) : ∀ i ∈ held.indices, i < trail.length := by
  cases held with
  | marker made =>
      have inside := (List.getElem?_eq_some_iff.1 stands.1).1
      have := stands.2.1
      simp only [indices, List.mem_cons, List.not_mem_nil, or_false]
      omega
  | completed made => simpa [indices] using stands.1
  | gone => nofun

theorem take_append_of_lt {start : Nat} (inside : start < trail.length) (more : List Event) :
    (trail ++ more).take start = trail.take start :=
  List.take_append_of_le_length (Nat.le_of_lt inside)

theorem Stands.append (stands : held.Stands trail) (more : List Event) :
    held.Stands (trail ++ more) := by
  have inside := stands.lt_length
  cases held with
  | marker made =>
      obtain ⟨own, le, here⟩ := stands
      have position := inside made.position (by simp [indices])
      refine ⟨by rw [List.getElem?_append_left position, own], le, ?_⟩
      rw [take_append_of_lt (Nat.lt_of_le_of_lt le position), here]
  | completed made =>
      obtain ⟨start, here⟩ := stands
      refine ⟨?_, by rw [take_append_of_lt start, here]⟩
      rw [List.length_append]
      exact Nat.lt_add_right _ start
  | gone => trivial

theorem Stands.take {length : Nat} (stands : held.Stands trail) (below : ∀ i ∈ held.indices, i < length) :
    held.Stands (trail.take length) := by
  have cut {start : Nat} (lt : start < length) : (trail.take length).take start = trail.take start := by
    rw [List.take_take, Nat.min_eq_left (Nat.le_of_lt lt)]
  cases held with
  | marker made =>
      obtain ⟨own, le, here⟩ := stands
      have position := below made.position (by simp [indices])
      exact ⟨by rw [List.getElem?_take_of_lt position, own], le,
        by rw [cut (Nat.lt_of_le_of_lt le position), here]⟩
  | completed made =>
      have start := below made.start (by simp [indices])
      refine ⟨?_, by rw [cut start, stands.2]⟩
      rw [List.length_take]
      exact Nat.lt_min.2 ⟨start, stands.1⟩
  | gone => trivial

theorem Stands.before (stands : held.Stands trail) (length : Nat) :
    (held.before length).Stands (trail.take length) := by
  unfold Held.before
  split
  · split
    · rename_i made below
      refine stands.take fun i mem => ?_
      have := stands.2.1
      simp only [indices, List.mem_cons, List.not_mem_nil, or_false] at mem
      omega
    · trivial
  · split
    · rename_i made below
      exact stands.take fun i mem => List.mem_singleton.1 mem ▸ below
    · trivial
  · trivial

/-- What may become of it when nothing is taken back: it stays, it is made a node, or it is used up. -/
inductive Becomes : Option Held → Held → Prop
  | same (held : Held) : Becomes (some held) held
  | completed (made : Marker) : Becomes (some (.marker made)) (.completed ⟨made.start, made.cursor⟩)
  | gone (held? : Option Held) : Becomes held? .gone

variable {held? : Option Held}

theorem Becomes.stands (becomes : Becomes held? held) (stands : ∀ old ∈ held?, old.Stands trail) :
    held.Stands trail := by
  cases becomes with
  | same => exact stands held rfl
  | completed made =>
      have was := stands _ rfl
      exact ⟨was.lt_length made.start (by simp [indices]), was.2.2⟩
  | gone => trivial

theorem Becomes.exists_of_mem (becomes : Becomes held? held) {i : Nat} (mem : i ∈ held.indices) :
    ∃ old, held? = some old ∧ i ∈ old.indices := by
  cases becomes with
  | same => exact ⟨held, rfl, mem⟩
  | completed made => exact ⟨.marker made, rfl, List.mem_cons.2 (.inl (List.mem_singleton.1 mem))⟩
  | gone => contradiction

/-- What has not been used up is another one. -/
theorem mem_set_gone {all : List Held} {n : Nat} (mem : held ∈ all.set n .gone) :
    held = .gone ∨ ∃ n', n' ≠ n ∧ all[n']? = some held := by
  obtain ⟨n', found⟩ := List.mem_iff_getElem?.1 mem
  rw [List.getElem?_set] at found
  split at found
  · split at found
    · exact .inl (Option.some.inj found).symm
    · contradiction
  · rename_i ne
    exact .inr ⟨n', Ne.symm ne, found⟩

theorem becomes_before (length : Nat) (held : Held) : Becomes (some held) (held.before length) := by
  unfold Held.before
  split
  · split
    · exact .same _
    · exact .gone _
  · split
    · exact .same _
    · exact .gone _
  · exact .same _

end Held

/-- Everything that is held stands in a trail, and no two markers have a place in common. -/
structure Holds (trail : List Event) (held : List Held) : Prop where
  stands : ∀ one ∈ held, one.Stands trail
  apart : ∀ (n n' : Nat) (made : Marker) (other : Held), held[n]? = some (.marker made) → n ≠ n' →
    held[n']? = some other → made.position ∉ other.indices

namespace Holds

variable {trail : List Event} {held : List Held}

theorem append (holds : Holds trail held) (more : List Event) : Holds (trail ++ more) held :=
  { holds with stands := fun one mem => (holds.stands one mem).append more }

/-- Some of them are resolved. -/
theorem become (holds : Holds trail held) {held' : List Held}
    (becomes : ∀ (n : Nat) (one : Held), held'[n]? = some one → Held.Becomes held[n]? one) :
    Holds trail held' where
  stands := fun one mem => by
    obtain ⟨n, found⟩ := List.mem_iff_getElem?.1 mem
    exact (becomes n one found).stands fun old was => holds.stands old (List.mem_of_getElem? was)
  apart := fun n n' made other found ne found' mem => by
    obtain ⟨old, was, mem⟩ := (becomes n' _ found').exists_of_mem mem
    have became := becomes n _ found
    generalize here : held[n]? = held? at became
    cases became
    exact holds.apart n n' made old here ne was mem

theorem set (holds : Holds trail held) (n : Nat) {new : Held} (becomes : Held.Becomes held[n]? new) :
    Holds trail (held.set n new) := by
  refine holds.become fun n' one found => ?_
  rw [List.getElem?_set] at found
  split at found
  · rename_i same
    subst same
    split at found
    · cases found
      exact becomes
    · contradiction
  · exact found ▸ .same one

/-- Everything from an index on is taken back. -/
theorem before (holds : Holds trail held) (length : Nat) :
    Holds (trail.take length) (held.map (Held.before length)) where
  stands := List.forall_mem_map.2 fun one mem => (holds.stands one mem).before length
  apart := (holds.become fun n one found => by
    rw [List.getElem?_map] at found
    obtain ⟨old, was, rfl⟩ := Option.map_eq_some_iff.1 found
    exact was ▸ Held.becomes_before length old).apart

/-- Nothing is held of what is taken back. -/
theorem take (holds : Holds trail held) {length : Nat}
    (below : ∀ one ∈ held, ∀ i ∈ one.indices, i < length) : Holds (trail.take length) held :=
  { holds with stands := fun one mem => (holds.stands one mem).take (below one mem) }

/-- A marker is made at the end. -/
theorem add (holds : Holds trail held) {made : Marker} (position : made.position = trail.length)
    (start : made.start ≤ trail.length) (cursor : (trail.take made.start).count .token = made.cursor)
    (apart : ∀ other, .marker other ∈ held → other.position ≠ made.start) :
    Holds (trail ++ [anyStart]) (held ++ [.marker made]) where
  stands := by
    refine List.forall_mem_append.2 ⟨fun one mem => (holds.stands one mem).append _, ?_⟩
    refine List.forall_mem_singleton.2 ⟨?_, position ▸ start, ?_⟩
    · rw [position, List.getElem?_append_right (Nat.le_refl _), Nat.sub_self]
      rfl
    · rw [List.take_append_of_le_length start, cursor]
  apart := by
    have last (n : Nat) (one : Held) (found : (held ++ [.marker made])[n]? = some one) :
        held[n]? = some one ∨ n = held.length ∧ one = .marker made := by
      rw [List.getElem?_append] at found
      split at found
      · exact .inl found
      · rename_i after
        obtain ⟨first, only⟩ := List.getElem?_eq_some_iff.1 found
        refine .inr ⟨?_, by simpa using only.symm⟩
        rw [List.length_singleton] at first
        omega
    intro n n' one other found ne found' mem
    rcases last n _ found with old | ⟨rfl, new⟩ <;> rcases last n' _ found' with old' | ⟨rfl, rfl⟩
    · exact holds.apart n n' one other old ne old' mem
    · have inside := (holds.stands _ (List.mem_of_getElem? old)).lt_length one.position
        (by simp [Held.indices])
      have other := apart one (List.mem_of_getElem? old)
      simp only [Held.indices, List.mem_cons, List.not_mem_nil, or_false] at mem
      omega
    · cases new
      have := (holds.stands _ (List.mem_of_getElem? old')).lt_length _ mem
      omega
    · exact ne rfl

end Holds

end StarlarkSyntax
