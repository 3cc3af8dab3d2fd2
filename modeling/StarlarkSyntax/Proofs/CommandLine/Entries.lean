import Mathlib.Data.List.Forall2
import Mathlib.Data.Nat.Find
import Mathlib.Order.Bounds.Defs
import Mathlib.Tactic.ByContra
import StarlarkSyntax.CommandLine.Session
/-!
# Where entries end

What decides is computed anew after each line, from the text of all lines so far: how many brackets are open
(`openAfter`), and what the last token is that counts. So an entry that goes on is settled by the lines
it is made of (`Entry.ofLines`), and one more line takes it to the entry of one line more (`addLine_ofLines`).

`readFirst?` reads the first entry of some lines. `EndsAfter` says where it ends without going
through the lines one by one, and `readFirst?_eq_some_iff` that this is where it ends. A session looks at the
entry that is read like this, and goes on with the lines after it (`takeAll_of_readFirst?`).
-/

set_option autoImplicit false

namespace StarlarkSyntax.CommandLine

variable {lines rest : List (List Char)} {line text : List Char} {count last taken : Nat}

/-! ## Lines read so far -/

/-- The text of some lines: a line feed stands between any two. -/
def joined (lines : List (List Char)) : List Char :=
  ['\n'].intercalate lines

theorem joined_append (some : lines ≠ []) (line : List Char) :
    joined (lines ++ [line]) = joined lines ++ '\n' :: line := by
  induction lines with
  | nil => exact absurd rfl some
  | cons first lines ih =>
      cases lines with
      | nil =>
          simp [joined, List.intercalate]
      | cons second lines =>
          have later := ih (List.cons_ne_nil _ _)
          simp only [joined, List.cons_append, List.intercalate_cons_cons] at later ⊢
          rw [later, List.append_assoc, List.append_assoc, List.append_assoc]

/-- The tokens of the first lines. -/
def tokensOf (lines : List (List Char)) (count : Nat) : List Token :=
  (tokenize (joined (lines.take count))).tokens

/-- How many brackets are open after the first lines. -/
def openAfter (lines : List (List Char)) (count : Nat) : Nat :=
  openBrackets (tokensOf lines count)

/-- Are there only blanks in the line after the first ones, and is no bracket open before it? -/
def BlankAfter (lines : List (List Char)) (count : Nat) : Prop :=
  openAfter lines count = 0 ∧ ∃ line, lines[count]? = some line ∧ Unicode.isBlank line = true

/-- Is no bracket open after the first lines, and has no block begun in them? -/
def ClosedAfter (lines : List (List Char)) (count : Nat) : Prop :=
  openAfter lines count = 0 ∧
    ∀ before, 0 < before → before ≤ count → endsWithColon (tokensOf lines before) = false

namespace Entry

/-- The entry that the first lines make if none of them ends it. -/
def ofLines (lines : List (List Char)) (count : Nat) : Entry where
  text := joined (lines.take count)
  opened := openAfter lines count
  block := (List.range count).any fun before => endsWithColon (tokensOf lines (before + 1))

theorem start_eq (line : List Char) (lines : List (List Char)) :
    start line = (ofLines (line :: lines) 1).settle := by
  simp [start, ofLine, ofText, ofLines, openAfter, tokensOf, joined, List.intercalate]

/-- One more line takes an entry to the entry of one line more. -/
theorem addLine_ofLines (pos : 0 < count) (is : lines[count]? = some line) :
    (ofLines lines count).addLine line = ofLines lines (count + 1) := by
  obtain ⟨lt, rfl⟩ := List.getElem?_eq_some_iff.1 is
  have text : joined (lines.take count) ++ '\n' :: lines[count] = joined (lines.take (count + 1)) := by
    rw [← List.take_append_getElem lt, joined_append]
    simpa using ⟨by omega, List.ne_nil_of_length_pos (by omega)⟩
  simp only [addLine, ofText, ofLines, text, openAfter, tokensOf, List.range_succ, List.any_append,
    List.any_cons, List.any_nil, Bool.or_false]

theorem settle_ofLines_of_closed (closed : ClosedAfter lines count) :
    (ofLines lines count).settle = .finished (joined (lines.take count) ++ ['\n']) := by
  obtain ⟨none, plain⟩ := closed
  have begun : (ofLines lines count).block = false := by
    simp only [ofLines, List.any_eq_false, List.mem_range, Bool.not_eq_true]
    intro before lt
    exact plain (before + 1) (by omega) (by omega)
  have shut : (ofLines lines count).isOpen = false := by
    simp [isOpen, ofLines, none]
  rw [settle, shut, begun]
  rfl

theorem settle_ofLines_of_not_closed (held : ¬ClosedAfter lines count) :
    (ofLines lines count).settle = .unfinished (ofLines lines count) := by
  rw [settle, if_pos]
  simp only [isOpen, ofLines, Bool.or_eq_true, bne_iff_ne, List.any_eq_true, List.mem_range]
  by_contra neither
  rw [not_or, not_not] at neither
  apply held
  constructor
  · exact neither.1
  · intro before pos le
    by_contra colon
    apply neither.2
    refine ⟨before - 1, by omega, ?_⟩
    rw [show before - 1 + 1 = before by omega]
    simpa using colon

theorem next_ofLines (pos : 0 < count) (is : lines[count]? = some line) :
    (ofLines lines count).next line = (ofLines lines (count + 1)).settle ∧ ¬BlankAfter lines count ∨
      (ofLines lines count).next line = .finished (joined (lines.take count) ++ ['\n']) ∧
        BlankAfter lines count := by
  rw [next, addLine_ofLines pos is]
  by_cases blank : BlankAfter lines count
  · right
    obtain ⟨none, other, same, white⟩ := blank
    obtain rfl : line = other := Option.some.inj (is.symm.trans same)
    rw [if_pos (by simp [isOpen, ofLines, none, white])]
    exact ⟨rfl, none, line, is, white⟩
  · left
    rw [if_neg]
    · exact ⟨rfl, blank⟩
    · intro found
      simp only [isOpen, ofLines, Bool.and_eq_true, Bool.not_eq_true', bne_eq_false_iff_eq] at found
      exact blank ⟨found.1, line, is, found.2⟩

end Entry

/-! ## Reading an entry -/

/-- Reads lines until an entry is finished. The lines after it are left. -/
def Progress.read? : Progress → List (List Char) → Option (List Char × List (List Char))
  | .finished text, lines => some (text, lines)
  | .unfinished _, [] => none
  | .unfinished entry, line :: lines => (entry.next line).read? lines

/-- Reads the first entry of some lines. -/
def readFirst? : List (List Char) → Option (List Char × List (List Char))
  | [] => none
  | line :: lines => (Entry.start line).read? lines

/-- Where an entry may end: how many lines it has, and how many have been read by then. -/
inductive Stops (lines : List (List Char)) : Nat → Nat → Prop where
  | closed {count : Nat} (closed : ClosedAfter lines count) : Stops lines count count
  | blank {count : Nat} (held : ¬ClosedAfter lines count) (blank : BlankAfter lines count) :
      Stops lines count (count + 1)

/-- Where an entry ends that has a number of lines already. -/
structure FirstStop (lines : List (List Char)) (count last taken : Nat) : Prop where
  after : count ≤ last
  there : last ≤ lines.length
  stops : Stops lines last taken
  first : ∀ before, count ≤ before → before < last → ∀ taken, ¬Stops lines before taken

namespace FirstStop

theorem of_stops (there : count ≤ lines.length) (stops : Stops lines count taken) :
    FirstStop lines count count taken where
  after := Nat.le_refl count
  there := there
  stops := stops
  first := fun before ge lt => by omega

theorem last_eq (stop : FirstStop lines count last taken) {other : Nat}
    (stops : Stops lines count other) : last = count := by
  have after := stop.after
  by_contra ne
  exact stop.first count (Nat.le_refl count) (by omega) other stops

theorem succ_iff (held : ∀ taken, ¬Stops lines count taken) :
    FirstStop lines count last taken ↔ FirstStop lines (count + 1) last taken := by
  constructor
  · rintro ⟨after, there, stops, first⟩
    have ne : count ≠ last := by
      rintro rfl
      exact held taken stops
    exact ⟨by omega, there, stops, fun before ge => first before (by omega)⟩
  · rintro ⟨after, there, stops, first⟩
    refine ⟨by omega, there, stops, fun before ge lt => ?_⟩
    by_cases same : before = count
    · exact same ▸ held
    · exact first before (by omega) lt

end FirstStop

theorem Stops.taken_eq {other : Nat} (stops : Stops lines count taken) (again : Stops lines count other) :
    taken = other := by
  cases stops with
  | closed closed =>
      cases again with
      | closed => rfl
      | blank held => exact absurd closed held
  | blank held =>
      cases again with
      | closed closed => exact absurd closed held
      | blank => rfl

theorem Stops.openAfter_eq (stops : Stops lines count taken) : openAfter lines count = 0 := by
  cases stops with
  | closed closed => exact closed.1
  | blank _ blank => exact blank.1

/-- From any number of lines on, an entry is read up to where it ends. -/
theorem read?_settle_ofLines {count : Nat} (pos : 0 < count) (there : count ≤ lines.length) :
    (Entry.ofLines lines count).settle.read? (lines.drop count) = some (text, rest) ↔
      ∃ last taken, FirstStop lines count last taken ∧
        text = joined (lines.take last) ++ ['\n'] ∧ rest = lines.drop taken := by
  -- An entry that ends with the lines that it has already.
  have settled {taken : Nat} (stops : Stops lines count taken) :
      Option.some (joined (lines.take count) ++ ['\n'], lines.drop taken) = Option.some (text, rest) ↔
        ∃ last taken, FirstStop lines count last taken ∧
          text = joined (lines.take last) ++ ['\n'] ∧ rest = lines.drop taken := by
    constructor
    · intro same
      obtain ⟨rfl, rfl⟩ := Prod.mk.inj (Option.some.inj same)
      exact ⟨count, taken, .of_stops there stops, rfl, rfl⟩
    · rintro ⟨last, other, stop, rfl, rfl⟩
      obtain rfl := stop.last_eq stops
      rw [stops.taken_eq stop.stops]
  by_cases closed : ClosedAfter lines count
  · rw [Entry.settle_ofLines_of_closed closed, Progress.read?]
    exact settled (.closed closed)
  rw [Entry.settle_ofLines_of_not_closed closed]
  rcases Nat.lt_or_eq_of_le there with lt | rfl
  · have is : lines[count]? = Option.some lines[count] := List.getElem?_eq_getElem lt
    rw [List.drop_eq_getElem_cons lt, Progress.read?]
    rcases Entry.next_ofLines pos is with ⟨next, plain⟩ | ⟨next, blank⟩
    · have held : ∀ taken, ¬Stops lines count taken := by
        rintro taken (⟨stops⟩ | ⟨-, stops⟩)
        · exact closed stops
        · exact plain stops
      rw [next, read?_settle_ofLines (Nat.succ_pos count) lt]
      simp only [FirstStop.succ_iff held]
    · rw [next, Progress.read?]
      exact settled (.blank closed blank)
  · rw [List.drop_length, Progress.read?]
    constructor
    · intro none
      cases none
    · rintro ⟨last, taken, stop, -, -⟩
      obtain rfl : last = lines.length := Nat.le_antisymm stop.there stop.after
      rcases stop.stops with stops | ⟨-, -, line, is, -⟩
      · exact absurd stops closed
      · rw [List.getElem?_eq_none (Nat.le_refl _)] at is
        cases is
termination_by lines.length - count

/-- Where the first entry of some lines ends: how many lines it has, and how many have been read by then. What
begins a block is the end of what has been typed. -/
inductive EndsAfter (begins : List Token → Bool) (lines : List (List Char)) : Nat → Nat → Prop where
  /-- The first line after which no bracket is open ends it, if no block has begun. -/
  | closed {count : Nat}
      (first : IsLeast {count | 0 < count ∧ count ≤ lines.length ∧ openAfter lines count = 0} count)
      (plain : ∀ before, 0 < before → before ≤ count → begins (tokensOf lines before) = false) :
      EndsAfter begins lines count count
  /-- A block that has begun is ended by the first blank line before which no bracket is open. -/
  | blank {colon count : Nat} (some : 0 < colon)
      (held : ∀ before, 0 < before → before < colon → openAfter lines before ≠ 0)
      (begun : begins (tokensOf lines colon) = true)
      (first : IsLeast {count | colon ≤ count ∧ BlankAfter lines count} count) :
      EndsAfter begins lines count (count + 1)

theorem firstStop_iff_endsAfter :
    FirstStop lines 1 last taken ↔ EndsAfter endsWithColon lines last taken := by
  constructor
  · rintro ⟨after, there, stops, first⟩
    have held : ∀ before, 0 < before → before < last → ¬ClosedAfter lines before :=
      fun before some lt closed => first before some lt before (.closed closed)
    rcases stops with ⟨⟨none, plain⟩⟩ | ⟨going, blank⟩
    · apply EndsAfter.closed _ plain
      constructor
      · exact ⟨after, there, none⟩
      · rintro before ⟨some, -, shut⟩
        by_contra lt
        rw [not_le] at lt
        exact held before some lt ⟨shut, fun earlier pos le => plain earlier pos (by omega)⟩
    · -- The first of the lines that end with a colon begins the block.
      have begun : ∃ colon, 0 < colon ∧ colon ≤ last ∧ endsWithColon (tokensOf lines colon) = true := by
        by_contra never
        apply going
        refine ⟨blank.1, fun before some le => ?_⟩
        by_contra colon
        exact never ⟨before, some, le, by simpa using colon⟩
      obtain ⟨some, le, colon⟩ := Nat.find_spec begun
      have none : ∀ before, 0 < before → before < Nat.find begun →
          endsWithColon (tokensOf lines before) = false := by
        intro before pos lt
        by_contra found
        exact Nat.find_min begun lt ⟨pos, by omega, by simpa using found⟩
      refine .blank some (fun before pos lt shut => ?_) colon ⟨⟨le, blank⟩, ?_⟩
      · apply held before pos (by omega)
        exact ⟨shut, fun earlier pos le => none earlier pos (by omega)⟩
      · rintro before ⟨ge, white⟩
        by_contra lt
        rw [not_le] at lt
        have going := held before (by omega) lt
        exact first before (by omega) lt (before + 1) (.blank going white)
  · intro ends
    cases ends with
    | closed first plain =>
        obtain ⟨⟨pos, there, none⟩, least⟩ := first
        refine ⟨pos, there, .closed ⟨none, plain⟩, fun before some lt taken stops => ?_⟩
        have le := least ⟨some, by omega, stops.openAfter_eq⟩
        omega
    | @blank colon _ pos held begun first =>
        obtain ⟨⟨le, blank⟩, least⟩ := first
        have going : ∀ after, colon ≤ after → ¬ClosedAfter lines after := by
          intro after le closed
          simp [closed.2 colon pos le] at begun
        have there : last < lines.length := by
          obtain ⟨-, line, is, -⟩ := blank
          exact (List.getElem?_eq_some_iff.1 is).1
        refine ⟨by omega, by omega, .blank (going last le) blank, fun before some lt taken stops => ?_⟩
        by_cases early : before < colon
        · exact held before some early stops.openAfter_eq
        · cases stops with
          | closed closed => exact going before (by omega) closed
          | blank _ blank =>
              have ge := least ⟨by omega, blank⟩
              omega

/-- An entry is read up to where it ends, and its text is that of its lines, each of which ends like the
others. -/
theorem readFirst?_eq_some_iff (lines : List (List Char)) (text : List Char) (rest : List (List Char)) :
    readFirst? lines = some (text, rest) ↔
      ∃ count taken, EndsAfter endsWithColon lines count taken ∧
        text = joined (lines.take count) ++ ['\n'] ∧ rest = lines.drop taken := by
  cases lines with
  | nil =>
      constructor
      · intro none
        cases none
      · rintro ⟨count, taken, ends, -, -⟩
        have stop := firstStop_iff_endsAfter.2 ends
        exact absurd (Nat.le_trans stop.after stop.there) (by simp)
  | cons line lines =>
      rw [readFirst?, Entry.start_eq line lines]
      simp only [← firstStop_iff_endsAfter]
      exact read?_settle_ofLines Nat.one_pos (by simp)

example : readFirst? ["if x:".toList, "  f()".toList, [], "y".toList] =
    some ("if x:\n  f()\n".toList, ["y".toList]) := by
  decide +kernel

/-- A colon that ends a line begins a block also where brackets are open. So this slice is not over where its
bracket is closed: a blank line has to follow. -/
theorem readFirst?_slice :
    EndsAfter (fun tokens => endsWithColon tokens && openBrackets tokens == 0)
      ["a[1:".toList, "2]".toList] 2 2 ∧ readFirst? ["a[1:".toList, "2]".toList] = none := by
  have closed : openAfter ["a[1:".toList, "2]".toList] 2 = 0 := by decide +kernel
  constructor
  · apply EndsAfter.closed
    · constructor
      · exact ⟨Nat.two_pos, Nat.le_refl 2, closed⟩
      · rintro before ⟨pos, -, shut⟩
        by_contra lt
        obtain rfl : before = 1 := by omega
        revert shut
        decide +kernel
    · intro before pos le
      obtain rfl | rfl : before = 1 ∨ before = 2 := by omega
      · decide +kernel
      · decide +kernel
  · decide +kernel

/-! ## Sessions -/

namespace Transcript

theorem append_assoc (first second third : Transcript) :
    first ++ second ++ third = first ++ (second ++ third) := by
  show append (append first second) third = append first (append second third)
  simp [append, Bool.and_assoc]

@[simp] theorem empty_append (transcript : Transcript) : {} ++ transcript = transcript := rfl

@[simp] theorem append_empty (transcript : Transcript) : transcript ++ {} = transcript := by
  show append transcript {} = transcript
  simp [append]

end Transcript

namespace Session

variable {options : Options} {terminal : Terminal} {session : Session} {entry : Entry}
  {typed : List ByteArray}

/-- Is this the line that was typed? -/
def Typed (bytes : ByteArray) (line : List Char) : Prop :=
  ∃ text, decode bytes = .ok text ∧ edited ((Text.lines text).headD []) = line

/-- What is written before the lines that an entry goes on with. -/
def asking (terminal : Terminal) : Nat → Transcript
  | 0 => {}
  | count + 1 =>
    { out := if terminal.prompted then "... ".toList else [] } ++ asking terminal count

/-- What is written about an entry, and about all that is typed after it. -/
def shown (session : Session) (options : Options) (terminal : Terminal) (text : List Char)
    (typed : List ByteArray) : Transcript :=
  (session.look options terminal text).1 ++
    (session.look options terminal text).2.takeAll options terminal typed

theorem takeAll_cons {bytes : ByteArray} (is : Typed bytes line) :
    session.takeAll options terminal (bytes :: typed) = session.ask terminal ++
      ((session.take options terminal line).1 ++
        (session.take options terminal line).2.takeAll options terminal typed) := by
  obtain ⟨text, decoded, rfl⟩ := is
  rw [takeAll, takeBytes, decoded]
  exact Transcript.append_assoc _ _ _

theorem ask_of_unfinished (goes : session.entry? = some entry) :
    session.ask terminal = { out := if terminal.prompted then "... ".toList else [] } := by
  rw [ask, prompt, goes]
  rfl

/-- A session that has begun an entry goes on until it ends, and then shows it. -/
theorem takeAll_of_read? (goes : session.entry? = some entry) (are : List.Forall₂ Typed typed lines)
    (read : (Progress.unfinished entry).read? lines = some (text, rest)) :
    ∃ taken, rest = lines.drop taken ∧ session.takeAll options terminal typed =
      asking terminal taken ++ session.shown options terminal text (typed.drop taken) := by
  induction are generalizing session entry with
  | nil => cases read
  | @cons bytes line typed lines is are ih =>
      rw [Progress.read?] at read
      rw [takeAll_cons is, take, goes, ask_of_unfinished goes]
      dsimp only
      cases next : entry.next line with
      | finished whole =>
          rw [next, Progress.read?] at read
          obtain ⟨rfl, rfl⟩ := Prod.mk.inj (Option.some.inj read)
          refine ⟨1, rfl, ?_⟩
          rw [asking, asking, Transcript.append_empty]
          rfl
      | unfinished later =>
          rw [next] at read
          have goes : Session.entry? { session with entry? := some later } = some later := rfl
          obtain ⟨taken, left, shows⟩ := ih goes read
          refine ⟨taken + 1, left, ?_⟩
          dsimp only
          rw [shows, Transcript.empty_append, asking, Transcript.append_assoc]
          rfl

/-- A session that is asked for an entry shows the one that is read, and takes the lines after it in the
same way. -/
theorem takeAll_of_readFirst? (fresh : session.entry? = none) (are : List.Forall₂ Typed typed lines)
    (read : readFirst? lines = some (text, rest)) :
    ∃ taken, rest = lines.drop (taken + 1) ∧ session.takeAll options terminal typed =
      session.ask terminal ++
        (asking terminal taken ++ session.shown options terminal text (typed.drop (taken + 1))) := by
  cases are with
  | nil => cases read
  | @cons bytes line typed lines is are =>
      rw [readFirst?] at read
      rw [takeAll_cons is, take, fresh]
      dsimp only
      cases begins : Entry.start line with
      | finished whole =>
          rw [begins, Progress.read?] at read
          obtain ⟨rfl, rfl⟩ := Prod.mk.inj (Option.some.inj read)
          exact ⟨0, rfl, rfl⟩
      | unfinished later =>
          rw [begins] at read
          have goes : Session.entry? { session with entry? := some later } = some later := rfl
          obtain ⟨taken, left, shows⟩ := takeAll_of_read? goes are read
          refine ⟨taken, left, ?_⟩
          dsimp only
          rw [shows]
          rfl

end Session
end StarlarkSyntax.CommandLine
