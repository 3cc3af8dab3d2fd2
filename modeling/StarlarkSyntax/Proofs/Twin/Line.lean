import StarlarkSyntax.Proofs.Grammar.Within
import StarlarkSyntax.Proofs.Twin.Basic
/-!
# Two readings of one line

The rules for expressions never pass the end of a statement. So where a statement ends among the tokens
that two texts have in common (`Twin.Bounded`), or where those are all there is, they see the same in
both. `Agree` is `Abreast` for such rules: the end of the statement stays ahead, and the rules stand in
the same place afterwards.

`Grown` says what was added since some twin, and `Open` what stands in a frame that was opened since: no
end of a statement, at least one token if a flag says so, and, if there is no message in it, shapes whose
operands bind as tightly as they should and that are as a predicate says.
-/

set_option autoImplicit false

namespace StarlarkSyntax

open Layout (Piece)
open scoped Computability

namespace Shape

variable {made made' : List Shape} {passed passed' : Bool} {fine fine' : List Shape → Prop}

/-- What rules within a line may make. -/
structure Intact (passed : Bool) (fine : List Shape → Prop) (made : List Shape) : Prop where
  unbroken : ∀ piece ∈ leavesAll made, piece.1 ≠ .statementBreak
  passes : passed = true → leavesAll made ≠ []
  bound : allClean made = true → AllBound made ∧ fine made

/-- Anything at all. -/
def Anything (_ : List Shape) : Prop := True

instance : Joining Anything := ⟨trivial, fun _ _ => trivial⟩

instance (form : Language Shape) : Joining (· ∈ form∗) :=
  ⟨Language.nil_mem_kstar form, Form.kstar_append⟩

theorem intact_nil : Intact false (· = []) [] :=
  ⟨nofun, nofun, fun _ => ⟨trivial, rfl⟩⟩

theorem intact_token {kind : Kind} (goesOn : kind ≠ .statementBreak) (body : List Char) :
    Intact true (· = [.token (kind, body)]) [.token (kind, body)] :=
  ⟨by simpa using goesOn, fun _ => nofun, fun _ => ⟨by simp, rfl⟩⟩

theorem Intact.mono (intact : Intact passed fine made) (less : passed' = true → passed = true)
    (weaker : ∀ made, fine made → fine' made) : Intact passed' fine' made :=
  ⟨intact.unbroken, fun passed' => intact.passes (less passed'), fun clean =>
    ⟨(intact.bound clean).1, weaker made (intact.bound clean).2⟩⟩

theorem Intact.append (first : Intact passed fine made) (second : Intact passed' fine' made') :
    Intact (passed || passed') (fun all => ∃ s t, all = s ++ t ∧ fine s ∧ fine' t) (made ++ made') where
  unbroken := by
    rw [leavesAll_append]
    exact List.forall_mem_append.2 ⟨first.unbroken, second.unbroken⟩
  passes := by
    intro some none
    rw [leavesAll_append, List.append_eq_nil_iff] at none
    rcases Bool.or_eq_true _ _ ▸ some with here | there
    · exact first.passes here none.1
    · exact second.passes there none.2
  bound := by
    intro clean
    rw [allClean_append, Bool.and_eq_true] at clean
    obtain ⟨bound, holds⟩ := first.bound clean.1
    obtain ⟨bound', holds'⟩ := second.bound clean.2
    exact ⟨(allBound_append _ _).2 ⟨bound, bound'⟩, made, made', rfl, holds, holds'⟩

theorem Intact.node (intact : Intact passed fine made) {kind : NodeKind}
    (binds : fine made → (Shape.node kind none made).WellMade) :
    Intact passed (fun all => ∃ made, all = [.node kind none made] ∧ fine made)
      [.node kind none made] where
  unbroken := by simpa using intact.unbroken
  passes := by simpa using intact.passes
  bound := by
    intro clean
    have clean : allClean made = true := by simpa using clean
    obtain ⟨bound, holds⟩ := intact.bound clean
    exact ⟨by simp [bound, binds holds], made, rfl, holds⟩

theorem Intact.fault (intact : Intact passed fine made) (message : String) :
    Intact passed (fun _ => False) [.node .error (some message) made] where
  unbroken := by simpa using intact.unbroken
  passes := by simpa using intact.passes
  bound := by simp

theorem intact_missing (message : String) :
    Intact false (fun _ => False) [.node .error (some message) []] :=
  intact_nil.fault message

end Shape

namespace Twin

open Shape

variable {pair : Pair} {start twin middle after : Twin pair} {marker marker' : Marker}
  {passed passed' : Bool} {fine fine' : List Shape → Prop}

/-- A statement ends among the tokens ahead, or they are all there is. -/
def Bounded (twin : Twin pair) : Prop :=
  (pair.leftTail = [] ∧ pair.rightTail = []) ∨ ∃ piece ∈ twin.ahead, piece.1 = .statementBreak

theorem Bounded.clear (bounded : twin.Bounded) : twin.Clear := by
  rcases bounded with whole | ⟨piece, mem, -⟩
  · exact fun _ => whole
  · exact fun nothing => by rw [nothing] at mem; cases mem

/-- Something was added since some twin, all of it within a line. -/
def Grown (start : Twin pair) (passed : Bool) (fine : List Shape → Prop) (after : Twin pair) : Prop :=
  ∃ made, Since start made after ∧ Intact passed fine made

/-- Something stands in a frame that was opened since some twin, all of it within a line. -/
def Open (start : Twin pair) (marker marker' : Marker) (passed : Bool) (fine : List Shape → Prop)
    (after : Twin pair) : Prop :=
  ∃ made, Begun start marker marker' made after ∧ Intact passed fine made

theorem Grown.refl (twin : Twin pair) : Grown twin false (· = []) twin :=
  ⟨[], .refl twin, intact_nil⟩

theorem Grown.mono (grown : Grown start passed fine after) (less : passed' = true → passed = true)
    (weaker : ∀ made, fine made → fine' made) : Grown start passed' fine' after := by
  obtain ⟨made, since, intact⟩ := grown
  exact ⟨made, since, intact.mono less weaker⟩

theorem Open.mono (opened : Open start marker marker' passed fine after)
    (less : passed' = true → passed = true) (weaker : ∀ made, fine made → fine' made) :
    Open start marker marker' passed' fine' after := by
  obtain ⟨made, within, intact⟩ := opened
  exact ⟨made, within, intact.mono less weaker⟩

theorem Grown.any (grown : Grown start passed fine after) (less : passed' = true → passed = true) :
    Grown start passed' Anything after :=
  grown.mono less fun _ _ => trivial

theorem Open.any (opened : Open start marker marker' passed fine after) :
    Open start marker marker' passed Anything after :=
  opened.mono id fun _ _ => trivial

theorem Grown.trans (first : Grown start passed fine middle)
    (second : Grown middle passed' fine' after) :
    Grown start (passed || passed') (fun all => ∃ s t, all = s ++ t ∧ fine s ∧ fine' t) after := by
  obtain ⟨made, since, intact⟩ := first
  obtain ⟨made', since', intact'⟩ := second
  exact ⟨made ++ made', since.trans since', intact.append intact'⟩

theorem Open.grow (opened : Open start marker marker' passed fine middle)
    (grown : Grown middle passed' fine' after) :
    Open start marker marker' (passed || passed')
      (fun all => ∃ s t, all = s ++ t ∧ fine s ∧ fine' t) after := by
  obtain ⟨made, within, intact⟩ := opened
  obtain ⟨made', since, intact'⟩ := grown
  exact ⟨made ++ made', within.since since, intact.append intact'⟩

/-- What is said of all that was added follows from what is said of its two parts. -/
theorem Grown.append {fine'' : List Shape → Prop} (first : Grown start passed fine middle)
    (second : Grown middle passed' fine' after)
    (all : ∀ made made', fine made → fine' made' → fine'' (made ++ made')) :
    Grown start (passed || passed') fine'' after := by
  refine (first.trans second).mono id ?_
  rintro _ ⟨made, made', rfl, holds, holds'⟩
  exact all made made' holds holds'

/-- What is said of all that stands in the frame follows from what is said of its two parts. -/
theorem Open.append {fine'' : List Shape → Prop} (opened : Open start marker marker' passed fine middle)
    (grown : Grown middle passed' fine' after)
    (all : ∀ made made', fine made → fine' made' → fine'' (made ++ made')) :
    Open start marker marker' (passed || passed') fine'' after := by
  refine (opened.grow grown).mono id ?_
  rintro _ ⟨made, made', rfl, holds, holds'⟩
  exact all made made' holds holds'

/-- More of the same was added. -/
theorem Grown.join [Joining fine] (first : Grown start passed fine middle)
    (second : Grown middle passed' fine after) : Grown start (passed || passed') fine after := by
  refine (first.trans second).mono id ?_
  rintro _ ⟨_, _, rfl, holds, holds'⟩
  exact Joining.append holds holds'

/-- More of the same stands in the frame. -/
theorem Open.join [Joining fine] (opened : Open start marker marker' passed fine middle)
    (grown : Grown middle passed' fine after) :
    Open start marker marker' (passed || passed') fine after := by
  refine (opened.grow grown).mono id ?_
  rintro _ ⟨_, _, rfl, holds, holds'⟩
  exact Joining.append holds holds'

/-- Nothing was added. -/
theorem Grown.nothing [Joining fine] (grown : Grown start passed (· = []) after)
    (less : passed' = true → passed = true) : Grown start passed' fine after :=
  grown.mono less fun _ none => none ▸ Joining.nil

/-- A token that was asked for was added, if nothing is said to be missing. -/
theorem Grown.expected {kind : Kind}
    (grown : Grown start passed (fun made => passed' = true ∧ ∃ body, made = [.token (kind, body)]) after)
    (holds : ∀ body, fine [.token (kind, body)]) : Grown start passed fine after := by
  refine grown.mono id ?_
  rintro _ ⟨-, body, rfl⟩
  exact holds body

/-- What is said of every node around the shapes is said of the node that was added. -/
theorem Grown.node {kind : NodeKind}
    (grown : Grown start passed (fun all => ∃ made, all = [.node kind none made] ∧ fine made) after)
    (holds : ∀ made, fine made → fine' [.node kind none made]) : Grown start passed fine' after := by
  refine grown.mono id ?_
  rintro _ ⟨made, rfl, is⟩
  exact holds made is

/-- What was added is well made. -/
theorem Grown.bound (grown : Grown start passed fine after) :
    Grown start passed (fun made => AllBound made ∧ fine made) after := by
  obtain ⟨made, since, intact⟩ := grown
  exact ⟨made, since, intact.unbroken, intact.passes, fun clean => ⟨(intact.bound clean).1, intact.bound clean⟩⟩

/-- What was added are the tokens that are not ahead any more. -/
theorem Grown.spent (grown : Grown start passed fine after) :
    Grown start passed (fun made => fine made ∧ start.ahead = leavesAll made ++ after.ahead) after := by
  obtain ⟨made, since, intact⟩ := grown
  exact ⟨made, since, intact.unbroken, intact.passes, fun clean =>
    ⟨(intact.bound clean).1, (intact.bound clean).2, since.ahead⟩⟩

/-- The first thing that stands in the frame. -/
theorem Open.first (opened : Open start marker marker' false (· = []) middle)
    (grown : Grown middle passed fine after) : Open start marker marker' passed fine after := by
  refine (opened.grow grown).mono id ?_
  rintro _ ⟨_, made, rfl, rfl, holds⟩
  exact holds

/-- A message stands in the frame. -/
theorem Open.spoil (opened : Open start marker marker' passed fine middle)
    (grown : Grown middle passed' (fun _ => False) after) :
    Open start marker marker' (passed || passed') (fun _ => False) after := by
  refine (opened.grow grown).mono id ?_
  rintro _ ⟨_, _, -, -, ⟨⟩⟩

/-- A message stays in the frame. -/
theorem Open.spoilt (opened : Open start marker marker' passed (fun _ => False) middle)
    (grown : Grown middle passed' fine after) :
    Open start marker marker' (passed || passed') (fun _ => False) after := by
  refine (opened.grow grown).mono id ?_
  rintro _ ⟨_, _, -, ⟨⟩, -⟩

/-- More stands in the frame, whatever it is. -/
theorem Open.more (opened : Open start marker marker' passed fine middle)
    (grown : Grown middle passed' fine' after) :
    Open start marker marker' (passed || passed') Anything after :=
  (opened.grow grown).any

/-- More was added, whatever it is. -/
theorem Grown.more (first : Grown start passed fine middle)
    (second : Grown middle passed' fine' after) : Grown start (passed || passed') Anything after :=
  (first.trans second).any id

theorem bounded_of_ahead {made : List Shape} (ahead : start.ahead = leavesAll made ++ after.ahead)
    (unbroken : ∀ piece ∈ leavesAll made, piece.1 ≠ .statementBreak) :
    start.Bounded ↔ after.Bounded := by
  refine or_congr_right ⟨fun ⟨piece, mem, is⟩ => ⟨piece, ?_, is⟩, fun ⟨piece, mem, is⟩ => ⟨piece, ?_, is⟩⟩
  · rw [ahead, List.mem_append] at mem
    exact mem.resolve_left fun early => unbroken piece early is
  · rw [ahead]
    exact List.mem_append_right _ mem

theorem Grown.bounded (grown : Grown start passed fine after) : start.Bounded ↔ after.Bounded := by
  obtain ⟨made, since, intact⟩ := grown
  exact bounded_of_ahead since.ahead intact.unbroken

theorem Open.bounded (opened : Open start marker marker' passed fine after) :
    start.Bounded ↔ after.Bounded := by
  obtain ⟨made, within, intact⟩ := opened
  exact bounded_of_ahead within.ahead intact.unbroken

theorem length_of_ahead {made : List Shape} (ahead : start.ahead = leavesAll made ++ after.ahead)
    (passes : leavesAll made ≠ []) : after.ahead.length < start.ahead.length := by
  have := List.length_pos_iff.2 passes
  rw [ahead, List.length_append]
  omega

/-- Fewer tokens are ahead when one has been passed. -/
theorem Grown.shorter (grown : Grown start true fine after) :
    after.ahead.length < start.ahead.length := by
  obtain ⟨made, since, intact⟩ := grown
  exact length_of_ahead since.ahead (intact.passes rfl)

end Twin

namespace Grammar

open Twin Shape

variable {pair : Pair} {α β σ : Type} {start twin : Twin pair} {marker marker' : Marker}
  {passed : Bool} {fine : List Shape → Prop} {kind : Kind} {message : String}

/-- The rules go abreast within a line, and stand in the same place afterwards. -/
def Agree (rule rule' : ParseM α) (twin : Twin pair) (post : α → α → Twin pair → Prop) : Prop :=
  twin.Bounded → Abreast rule rule' twin fun answer answer' after =>
    after.Bounded ∧ after.place = twin.place ∧ post answer answer' after

theorem Agree.mono {rule rule' : ParseM α} {post post' : α → α → Twin pair → Prop}
    (agree : Agree rule rule' twin post)
    (weaker : ∀ answer answer' after, post answer answer' after → post' answer answer' after) :
    Agree rule rule' twin post' := fun bounded =>
  (agree bounded).mono fun _ _ _ ⟨bounded, place, holds⟩ => ⟨bounded, place, weaker _ _ _ holds⟩

theorem Agree.bind {first first' : ParseM α} {next next' : α → ParseM β}
    {post : β → β → Twin pair → Prop}
    (agree : Agree first first' twin fun value value' middle =>
      Agree (next value) (next' value') middle post) :
    Agree (first >>= next) (first' >>= next') twin post := fun bounded =>
  .bind ((agree bounded).mono fun _ _ _ ⟨bounded, place, holds⟩ =>
    (holds bounded).mono fun _ _ _ ⟨bounded, place', holds⟩ =>
      ⟨bounded, place'.trans place, holds⟩)

theorem agree_pure {answer answer' : α} {post : α → α → Twin pair → Prop}
    (holds : post answer answer' twin) : Agree (pure answer) (pure answer') twin post :=
  fun bounded => abreast_pure ⟨bounded, rfl, holds⟩

/-! ## Looking at tokens -/

theorem agree_current? {post : Option Kind → Option Kind → Twin pair → Prop}
    (holds : post twin.next? twin.next? twin) : Agree current? current? twin post := fun bounded =>
  abreast_current? bounded.clear ⟨bounded, rfl, holds⟩

theorem agree_isAt {post : Bool → Bool → Twin pair → Prop}
    (yes : twin.next? = some kind → post true true twin)
    (no : twin.next? ≠ some kind → post false false twin) :
    Agree (isAt kind) (isAt kind) twin post := by
  refine fun bounded => abreast_isAt (bounded.clear.tells kind) ⟨bounded, rfl, ?_⟩
  cases is : twin.next? == some kind with
  | true => exact yes (beq_iff_eq.1 is)
  | false => exact no (beq_eq_false_iff_ne.1 is)

theorem agree_isAtAny {kinds : List Kind} {post : Bool → Bool → Twin pair → Prop}
    (yes : ∀ kind ∈ kinds, twin.next? = some kind → post true true twin)
    (no : (∀ kind ∈ kinds, twin.next? ≠ some kind) → post false false twin) :
    Agree (isAtAny kinds) (isAtAny kinds) twin post := by
  refine fun bounded => abreast_isAtAny bounded.clear ⟨bounded, rfl, ?_⟩
  cases is : twin.next?.any kinds.contains with
  | true =>
      obtain ⟨kind, next, mem⟩ := (Option.any_eq_true _ _).1 is
      exact yes kind (List.contains_iff_mem.1 mem) next
  | false =>
      refine no fun kind mem next => ?_
      rw [next, Option.any_some, List.contains_iff_mem.2 mem] at is
      cases is

theorem agree_atEnd {post : Bool → Bool → Twin pair → Prop}
    (yes : twin.next? = none → post true true twin)
    (no : ∀ kind, twin.next? = some kind → post false false twin) :
    Agree atEnd atEnd twin post := by
  refine fun bounded => abreast_atEnd bounded.clear ⟨bounded, rfl, ?_⟩
  cases ahead : twin.ahead with
  | nil => exact yes (by rw [next?, ahead]; rfl)
  | cons piece left => exact no piece.1 (by rw [next?, ahead]; rfl)

/-! ## Moves of the builder -/

theorem agree_mark {post : Marker → Marker → Twin pair → Prop}
    (holds : ∀ marker marker' after, Open twin marker marker' false (· = []) after →
      after.ahead = twin.ahead → post marker marker' after) : Agree mark mark twin post := by
  refine fun bounded => abreast_mark fun marker marker' after within here place => ?_
  have opened : Open twin marker marker' false (· = []) after := ⟨[], within, intact_nil⟩
  exact ⟨opened.bounded.1 bounded, place, holds _ _ after opened here⟩

theorem agree_done {kind : NodeKind} {post : Unit → Unit → Twin pair → Prop}
    (opened : Open start marker marker' passed fine twin)
    (binds : ∀ made, fine made → (Shape.node kind none made).WellMade)
    (holds : ∀ after,
      Grown start passed (fun all => ∃ made, all = [.node kind none made] ∧ fine made) after →
      after.ahead = twin.ahead → post () () after) :
    Agree (done marker kind) (done marker' kind) twin post := by
  obtain ⟨made, within, intact⟩ := opened
  refine fun bounded => abreast_done within fun after since here place => ?_
  have grown : Grown start passed _ after := ⟨_, since, intact.node (binds made)⟩
  exact ⟨grown.bounded.1 ((Open.bounded ⟨made, within, intact⟩).2 bounded), place,
    holds after grown here⟩

theorem agree_fault {post : Unit → Unit → Twin pair → Prop}
    (opened : Open start marker marker' passed fine twin)
    (holds : ∀ after, Grown start passed (fun _ => False) after → after.ahead = twin.ahead →
      post () () after) :
    Agree (fault marker message) (fault marker' message) twin post := by
  obtain ⟨made, within, intact⟩ := opened
  refine fun bounded => abreast_fault within fun after since here place => ?_
  have grown : Grown start passed (fun _ => False) after := ⟨_, since, intact.fault message⟩
  exact ⟨grown.bounded.1 ((Open.bounded ⟨made, within, intact⟩).2 bounded), place,
    holds after grown here⟩

theorem agree_drop {post : Unit → Unit → Twin pair → Prop}
    (opened : Open start marker marker' passed fine twin)
    (holds : ∀ after, Grown start passed fine after → after.ahead = twin.ahead → post () () after) :
    Agree (drop marker) (drop marker') twin post := by
  obtain ⟨made, within, intact⟩ := opened
  refine fun bounded => abreast_drop within fun after since here place => ?_
  have grown : Grown start passed fine after := ⟨made, since, intact⟩
  exact ⟨grown.bounded.1 ((Open.bounded ⟨made, within, intact⟩).2 bounded), place,
    holds after grown here⟩

theorem agree_rollback {post : Unit → Unit → Twin pair → Prop}
    (opened : Open start marker marker' passed fine twin)
    (holds : ∀ after, Grown start false (· = []) after → after.ahead = start.ahead →
      post () () after) : Agree (rollback marker) (rollback marker') twin post := by
  obtain ⟨made, within, intact⟩ := opened
  refine fun bounded => abreast_rollback within fun after since here place => ?_
  have grown : Grown start false (· = []) after := ⟨[], since, intact_nil⟩
  exact ⟨grown.bounded.1 ((Open.bounded ⟨made, within, intact⟩).2 bounded), place,
    holds after grown here⟩

/-- What is made in another frame can be taken back as well. -/
theorem agree_rollbackAround {middle : Twin pair} {inner inner' : Marker} {passed' : Bool}
    {fine' : List Shape → Prop} {post : Unit → Unit → Twin pair → Prop}
    (opened : Open start marker marker' passed fine middle)
    (deeper : Open middle inner inner' passed' fine' twin)
    (holds : ∀ after, Grown start false (· = []) after → after.ahead = start.ahead →
      post () () after) : Agree (rollback marker) (rollback marker') twin post := by
  have before := opened.bounded.trans deeper.bounded
  obtain ⟨made, within, -⟩ := opened
  obtain ⟨made', within', -⟩ := deeper
  refine fun bounded => abreast_rollbackAround within within' fun after since here place => ?_
  have grown : Grown start false (· = []) after := ⟨[], since, intact_nil⟩
  exact ⟨grown.bounded.1 (before.2 bounded), place, holds after grown here⟩

theorem agree_wrap {kind : NodeKind} {post : Marker → Marker → Twin pair → Prop}
    (opened : Open start marker marker' passed fine twin)
    (binds : ∀ made, fine made → (Shape.node kind none made).WellMade)
    (holds : ∀ wrapper wrapper' after, Open start wrapper wrapper' passed
      (fun all => ∃ made, all = [.node kind none made] ∧ fine made) after →
      after.ahead = twin.ahead → post wrapper wrapper' after) :
    Agree (wrap marker kind) (wrap marker' kind) twin post := by
  obtain ⟨made, within, intact⟩ := opened
  refine fun bounded => abreast_wrap within fun wrapper wrapper' after within' here place => ?_
  have wrapped : Open start wrapper wrapper' passed _ after := ⟨_, within', intact.node (binds made)⟩
  exact ⟨wrapped.bounded.1 ((Open.bounded ⟨made, within, intact⟩).2 bounded), place,
    holds _ _ after wrapped here⟩

theorem agree_missing {post : Unit → Unit → Twin pair → Prop}
    (holds : ∀ after, Grown twin false (fun _ => False) after → after.ahead = twin.ahead →
      post () () after) : Agree (missing message) (missing message) twin post := by
  refine fun bounded => abreast_missing fun after since here place => ?_
  have grown : Grown twin false (fun _ => False) after := ⟨_, since, intact_missing message⟩
  exact ⟨grown.bounded.1 bounded, place, holds after grown here⟩

theorem agree_advance {post : Unit → Unit → Twin pair → Prop} (next : twin.next? = some kind)
    (goesOn : kind ≠ .statementBreak)
    (holds : ∀ body after, Grown twin true (· = [.token (kind, body)]) after →
      after.ahead = twin.ahead.tail → post () () after) :
    Agree advance advance twin post := by
  obtain ⟨body, ahead, next⟩ := ahead_of_next? next
  refine fun bounded => abreast_advance next fun after since here place => ?_
  have grown : Grown twin true (· = [.token (kind, body)]) after := ⟨_, since, intact_token goesOn body⟩
  exact ⟨grown.bounded.1 bounded, place, holds body after grown (by rw [here, next]; rfl)⟩

theorem agree_matches {post : Bool → Bool → Twin pair → Prop} (goesOn : kind ≠ .statementBreak)
    (yes : ∀ body after, Grown twin true (· = [.token (kind, body)]) after → post true true after)
    (no : twin.next? ≠ some kind → post false false twin) :
    Agree (matches? kind) (matches? kind) twin post := by
  rw [matches?_eq]
  refine .bind (agree_isAt (fun is => ?_) fun not => ?_)
  · exact .bind (agree_advance is goesOn fun body after grown _ => agree_pure (yes body after grown))
  · exact agree_pure (no not)

/-- If nothing is said to be missing, the token was there. -/
theorem agree_expect {post : Bool → Bool → Twin pair → Prop} (goesOn : kind ≠ .statementBreak)
    (holds : ∀ found after, Grown twin found
      (fun made => found = true ∧ ∃ body, made = [.token (kind, body)]) after →
      post found found after) :
    Agree (expect kind message) (expect kind message) twin post := by
  rw [expect_eq]
  refine .bind (agree_matches goesOn (fun body after grown => ?_) fun _ => ?_)
  · exact agree_pure (holds true after (grown.mono id fun made is => ⟨rfl, body, is⟩))
  · refine .bind (agree_missing fun after grown _ => agree_pure (holds false after ?_))
    exact grown.mono id fun _ => False.elim

theorem agree_advanceError {post : Unit → Unit → Twin pair → Prop} (next : twin.next? = some kind)
    (goesOn : kind ≠ .statementBreak)
    (holds : ∀ after, Grown twin true (fun _ => False) after → post () () after) :
    Agree (advanceError message) (advanceError message) twin post := by
  obtain ⟨body, ahead, next⟩ := ahead_of_next? next
  refine fun bounded => abreast_advanceError next fun after since here place => ?_
  have grown : Grown twin true (fun _ => False) after :=
    ⟨_, since, (intact_token goesOn body).fault message⟩
  exact ⟨grown.bounded.1 bounded, place, holds after grown⟩

/-! ## Repetition -/

theorem agree_loop {rule rule' : σ → ParseM (Bool × σ)} (invariant : σ → σ → Twin pair → Prop)
    {post : σ → σ → Twin pair → Prop}
    (round : ∀ state state' twin, invariant state state' twin →
      Agree (rule state) (rule' state') twin fun answer answer' after => answer.1 = answer'.1 ∧
        if answer.1 then
          invariant answer.2 answer'.2 after ∧ after.ahead.length < twin.ahead.length
        else post answer.2 answer'.2 after)
    {state state' : σ} (holds : invariant state state' twin) :
    Agree (loop rule state) (loop rule' state') twin post := by
  intro bounded
  refine abreast_loop (fun state state' middle => invariant state state' middle ∧ middle.Bounded ∧
    middle.place = twin.place) ?_ state state' twin ⟨holds, bounded, rfl⟩
  intro state state' middle ⟨holds, bounded, place⟩
  refine (round state state' middle holds bounded).mono ?_
  rintro ⟨goOn, state⟩ ⟨_, state'⟩ after ⟨bounded, place', ⟨⟩, holds⟩
  cases goOn with
  | false => exact ⟨rfl, bounded, place'.trans place, holds⟩
  | true => exact ⟨rfl, ⟨holds.1, bounded, place'.trans place⟩, holds.2⟩

theorem agree_repeatWhile {rule rule' : ParseM Bool} (invariant post : Twin pair → Prop)
    (round : ∀ twin, invariant twin → Agree rule rule' twin fun found found' after => found = found' ∧
      if found then invariant after ∧ after.ahead.length < twin.ahead.length else post after)
    (holds : invariant twin) :
    Agree (repeatWhile rule) (repeatWhile rule') twin fun _ _ after => post after := by
  refine agree_loop (fun (_ _ : Unit) => invariant) (fun _ _ middle holds => ?_) holds
  refine .bind ((round middle holds).mono ?_)
  rintro found _ after ⟨rfl, holds⟩
  exact agree_pure ⟨rfl, holds⟩

end Grammar
end StarlarkSyntax
