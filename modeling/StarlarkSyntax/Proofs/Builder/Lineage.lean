import StarlarkSyntax.Proofs.Builder.Rollback
import StarlarkSyntax.Proofs.Builder.Usage
/-!
# Markers, what they wrap, and how far they take back

A marker that wraps a node begins where the node begins, and the node may be one that was finished long
before. A `Lineage` is a usage that knows of each marker from which one it came by wrapping, its *root*.
After a marker was made, a lineage is `Spared` as long as nothing is resolved or taken back that was begun
before: newer markers are at later places, and what has the marker for its root begins just there.

So everything can be taken back to the marker, or to a node that has become of it, through any number of
wrappers, and the builder is what it was before the mark (`builder_rollback`).
-/

set_option autoImplicit false

namespace StarlarkSyntax

/-! ## Markers and what they wrap -/

namespace Held

/-- Where it begins, and the cursor there. -/
def begun? : Held → Option (Nat × Nat)
  | marker made => some (made.start, made.cursor)
  | completed made => some (made.start, made.cursor)
  | gone => none

variable {held? : Option Held} {held : Held}

/-- It begins where it began. -/
theorem Becomes.begun? (becomes : Becomes held? held) {place : Nat × Nat} (begun : held.begun? = some place) :
    ∃ old, held? = some old ∧ old.begun? = some place := by
  cases becomes with
  | same => exact ⟨held, rfl, begun⟩
  | completed made => exact ⟨.marker made, rfl, begun⟩
  | gone => contradiction

theorem Becomes.of_marker {made : Marker} (becomes : Becomes held? (.marker made)) :
    held? = some (.marker made) := by
  cases becomes
  rfl

theorem becomes_set {all : List Held} {n : Nat} {new : Held} (becomes : Becomes all[n]? new) (m : Nat)
    (one : Held) (found : (all.set n new)[m]? = some one) : Becomes all[m]? one := by
  rw [List.getElem?_set] at found
  split at found
  · rename_i same
    subst same
    split at found
    · cases found
      exact becomes
    · contradiction
  · exact found ▸ .same one

end Held

namespace Usage

theorem Sound.wellFormed {lexed : Lexed} {usage : Usage} (sound : usage.Sound lexed) :
    usage.builder.WellFormed := by
  obtain ⟨depth, since⟩ := sound.since
  exact since.wellFormed

/-- A marker that is new after something was done, or one that was used up at once. -/
inductive Makes (usage : Usage) : Use → Held → Prop
  | gone (use : Use) : Makes usage use .gone
  | mark : Makes usage (.does .mark) (.marker usage.builder.mark.1)
  | precede {n : Nat} {made : Completed} (held : usage.held[n]? = some (.completed made)) :
      Makes usage (.does (.precede n)) (.marker (usage.builder.precede made).1)

/-- The markers that there were are resolved or not, and there is at most one more. -/
def MayHold (usage : Usage) (use : Use) (held : List Held) : Prop :=
  ∃ kept added : List Held, held = kept ++ added ∧ kept.length = usage.held.length ∧
    (∀ (m : Nat) (one : Held), kept[m]? = some one → Held.Becomes usage.held[m]? one) ∧
    added.length ≤ 1 ∧ ∀ one ∈ added, usage.Makes use one

section

variable {usage : Usage} {use : Use}

theorem mayHold_add {one : Held} (makes : usage.Makes use one) : usage.MayHold use (usage.held ++ [one]) :=
  ⟨_, [one], rfl, rfl, fun _ _ found => found ▸ .same _, Nat.le_refl _, List.forall_mem_singleton.2 makes⟩

theorem mayHold_same : usage.MayHold use usage.held :=
  ⟨_, [], (List.append_nil _).symm, rfl, fun _ _ found => found ▸ .same _, Nat.zero_le _, nofun⟩

theorem mayHold_set {n : Nat} {new : Held} (becomes : Held.Becomes usage.held[n]? new) :
    usage.MayHold use (usage.held.set n new) :=
  ⟨_, [], (List.append_nil _).symm, List.length_set, Held.becomes_set becomes, Nat.zero_le _, nofun⟩

theorem mayHold_before (n start : Nat) :
    usage.MayHold use ((usage.held.set n .gone).map (Held.before start)) := by
  refine ⟨_, [], (List.append_nil _).symm, by simp, fun m one found => ?_, Nat.zero_le _, nofun⟩
  rw [List.getElem?_map] at found
  obtain ⟨old, was, rfl⟩ := Option.map_eq_some_iff.1 found
  rw [List.getElem?_set] at was
  split at was
  · split at was
    · cases was
      exact .gone _
    · contradiction
  · exact was ▸ Held.becomes_before start old

end

theorem mayHold_step {usage next : Usage} {use : Use} (does : usage.step use = some next) :
    usage.MayHold use next.held := by
  cases use with
  | does operation =>
      cases operation with
      | mark =>
          cases does
          exact mayHold_add .mark
      | done n kind | error n message =>
          obtain ⟨made, found, does⟩ := Option.bind_eq_some_iff.1 does
          cases does
          exact mayHold_set (Bench.held_of_marker? found ▸ .completed made)
      | drop n =>
          obtain ⟨made, -, does⟩ := Option.bind_eq_some_iff.1 does
          cases does
          exact mayHold_set (.gone _)
      | rollback n =>
          dsimp only [step] at does
          split at does
          · cases does
            exact mayHold_before _ _
          · cases does
            exact mayHold_before _ _
          · contradiction
      | precede n =>
          obtain ⟨made, found, does⟩ := Option.bind_eq_some_iff.1 does
          cases does
          exact ⟨_, [_], rfl, List.length_set, Held.becomes_set (.gone _), Nat.le_refl _,
            List.forall_mem_singleton.2 (.precede (Bench.held_of_completed? found))⟩
      | keep n =>
          obtain ⟨made, -, does⟩ := Option.bind_eq_some_iff.1 does
          cases does
          exact mayHold_set (.gone _)
      | advance | missing message =>
          cases does
          exact mayHold_same
      | advanceError message =>
          dsimp only [step] at does
          split at does
          · cases does
            exact mayHold_same
          · cases does
            exact mayHold_add (.gone _)
  | takes kind | expects kind message | enters | exits =>
      cases does
      exact mayHold_same

end Usage

/-- Does it make a node of a marker? -/
def Use.resolves (marker : Nat) : Use → Bool
  | .does (.done marker' _) | .does (.error marker' _) => marker' = marker
  | _ => false

/-- A usage, and of each marker the first of those that it wraps, or itself. -/
structure Lineage extends Usage where
  roots : List Nat := []
deriving Inhabited

namespace Lineage

/-- The first of the markers that a marker wraps, or itself. -/
def root (lineage : Lineage) (marker : Nat) : Nat :=
  lineage.roots.getD marker marker

/-- The root of a marker that is made next. -/
def newRoot (lineage : Lineage) : Use → Nat
  | .does (.precede marker) => lineage.root marker
  | _ => lineage.held.length

/-- Does one thing, if the marker for it is live. -/
def step (lineage : Lineage) (use : Use) : Option Lineage := do
  let next ← lineage.toUsage.step use
  some { next with
    roots := lineage.roots ++
      List.replicate (next.held.length - lineage.held.length) (lineage.newRoot use) }

/-- Does several things one after another, as long as they are allowed. -/
def runWhile (allowed : Lineage → Use → Bool) : List Use → Lineage → Option Lineage
  | [], lineage => some lineage
  | use :: uses, lineage =>
    if allowed lineage use then (lineage.step use).bind (runWhile allowed uses) else none

/-- Does several things one after another. -/
abbrev run : List Use → Lineage → Option Lineage :=
  runWhile fun _ _ => true

def ofLexed (lexed : Lexed) : Lineage := { Usage.ofLexed lexed with }

/-- Does it leave alone what was begun before a marker? Nodes that were finished before may be wrapped, and
the wrappers resolved, but they are not taken back with what they wrap. The marker itself may become a node,
and that may be wrapped too. -/
def spares (marker : Nat) (lineage : Lineage) : Use → Bool
  | .does (.done newer _) | .does (.error newer _) => marker ≤ newer
  | .does (.drop newer) => marker < newer
  | .does (.rollback newer) => marker < lineage.root newer
  | _ => true

/-- What is done is done to the usage. -/
theorem exists_step {lineage next : Lineage} {use : Use} (does : lineage.step use = some next) :
    ∃ usage, lineage.toUsage.step use = some usage ∧ next = { usage with
      roots := lineage.roots ++
        List.replicate (usage.held.length - lineage.held.length) (lineage.newRoot use) } := by
  obtain ⟨usage, stepped, eq⟩ := Option.bind_eq_some_iff.1 does
  exact ⟨usage, stepped, (Option.some.inj eq).symm⟩

theorem sound_step {lexed : Lexed} {lineage next : Lineage} {use : Use}
    (sound : lineage.toUsage.Sound lexed) (does : lineage.step use = some next) :
    next.toUsage.Sound lexed := by
  obtain ⟨usage, stepped, rfl⟩ := exists_step does
  exact sound.step stepped

theorem runWhile_induct {motive : Lineage → Prop} {allowed : Lineage → Use → Bool}
    (step : ∀ {lineage next : Lineage} {use : Use}, motive lineage → allowed lineage use = true →
      lineage.step use = some next → motive next)
    {uses : List Use} {lineage last : Lineage} (start : motive lineage)
    (did : lineage.runWhile allowed uses = some last) : motive last := by
  induction uses generalizing lineage with
  | nil =>
      cases did
      exact start
  | cons use uses ih =>
      unfold runWhile at did
      split at did
      · rename_i isAllowed
        obtain ⟨next, does, did⟩ := Option.bind_eq_some_iff.1 did
        exact ih (step start isAllowed does) did
      · contradiction

/-! ## What stays true of a lineage -/

/-- There is a root for each marker, and it is not newer. -/
structure Rooted (lineage : Lineage) : Prop where
  length : lineage.roots.length = lineage.held.length
  le : ∀ marker, lineage.root marker ≤ marker

/-- Older markers keep their roots, and a new one gets its own. -/
theorem Rooted.root_step {lineage next : Lineage} {use : Use} (rooted : lineage.Rooted)
    (does : lineage.step use = some next) (marker : Nat) :
    next.root marker = if lineage.held.length ≤ marker ∧ marker < next.held.length then
      lineage.newRoot use else lineage.root marker := by
  obtain ⟨usage, -, rfl⟩ := exists_step does
  have length := rooted.length
  simp only [root, List.getD_eq_getElem?_getD, List.getElem?_append, List.getElem?_replicate]
  by_cases old : marker < lineage.roots.length
  · rw [if_pos old, if_neg (by omega)]
  · rw [if_neg old, List.getElem?_eq_none (Nat.not_lt.1 old)]
    by_cases new : marker < usage.held.length
    · rw [if_pos (by omega), if_pos (by omega)]
      rfl
    · rw [if_neg (by omega), if_neg (by omega)]

theorem Rooted.step {lineage next : Lineage} {use : Use} (rooted : lineage.Rooted)
    (does : lineage.step use = some next) : next.Rooted where
  length := by
    obtain ⟨usage, stepped, rfl⟩ := exists_step does
    obtain ⟨kept, added, held, length, -⟩ := Usage.mayHold_step stepped
    have more := congrArg List.length held
    rw [List.length_append] at more
    simp only [List.length_append, List.length_replicate, rooted.length]
    omega
  le := fun marker => by
    rw [rooted.root_step does]
    split
    · rename_i new
      refine Nat.le_trans ?_ new.1
      unfold newRoot
      split
      · rename_i wrapped
        obtain ⟨usage, stepped, -⟩ := exists_step does
        obtain ⟨made, found, -⟩ := Option.bind_eq_some_iff.1 stepped
        have inside := (List.getElem?_eq_some_iff.1 (Bench.held_of_completed? found)).1
        exact Nat.le_trans (rooted.le wrapped) (Nat.le_of_lt inside)
      · exact Nat.le_refl _
    · exact rooted.le marker

/-- The lineage has come of `base` by making a marker and leaving alone everything older. -/
structure Spared (base lineage : Lineage) : Prop extends Rooted lineage where
  regains : base.builder.Regains lineage.builder
  own : base.held.length < lineage.held.length ∧ lineage.root base.held.length = base.held.length
  itself : ∀ made, lineage.held[base.held.length]? = some (.marker made) → made = base.builder.mark.1
  /-- A newer marker is at a later place. -/
  newer : ∀ (n : Nat) (made : Marker), base.held.length < n → lineage.held[n]? = some (.marker made) →
    base.builder.events.size < made.position
  /-- What wraps nothing that is as old as the marker begins later. -/
  later : ∀ (n : Nat) (held : Held) (place : Nat × Nat), base.held.length < lineage.root n →
    lineage.held[n]? = some held → held.begun? = some place → base.builder.events.size < place.1
  /-- What wraps the marker begins where it began. -/
  family : ∀ (n : Nat) (held : Held) (place : Nat × Nat), lineage.root n = base.held.length →
    lineage.held[n]? = some held → held.begun? = some place →
      place = (base.builder.events.size, base.builder.cursor)

namespace Spared

variable {base lineage next : Lineage}

theorem start {lexed : Lexed} (sound : base.toUsage.Sound lexed) (rooted : base.Rooted)
    (made : base.step (.does .mark) = some next) : Spared base next := by
  have root := rooted.root_step made
  have rooted' := rooted.step made
  obtain ⟨usage, stepped, rfl⟩ := exists_step made
  cases stepped
  have last (n : Nat) (one : Held) (found : (base.held ++ [.marker base.builder.mark.1])[n]? = some one) :
      n < base.held.length ∨ n = base.held.length ∧ one = .marker base.builder.mark.1 := by
    rw [List.getElem?_append] at found
    split at found
    · exact .inl ‹_›
    · rename_i after
      obtain ⟨first, only⟩ := List.getElem?_eq_some_iff.1 found
      rw [List.length_singleton] at first
      exact .inr ⟨by omega, by simpa using only.symm⟩
  have own := root base.held.length
  rw [if_pos ⟨Nat.le_refl _, by simp⟩] at own
  have old (n : Nat) (before : n < base.held.length) := (root n).trans (if_neg (by omega))
  refine { rooted' with
    regains := .mark sound.wellFormed, own := ⟨by simp, own⟩, itself := ?_, newer := ?_, later := ?_, family := ?_ }
  · intro made found
    rcases last _ _ found with before | ⟨-, eq⟩
    · exact absurd before (Nat.lt_irrefl _)
    · cases eq
      rfl
  · intro n made after found
    rcases last _ _ found with before | ⟨eq, -⟩ <;> omega
  · intro n held place after found begun
    have := rooted'.le n
    rcases last _ _ found with before | ⟨rfl, -⟩
    · omega
    · have := own ▸ after
      exact absurd this (Nat.lt_irrefl _)
  · intro n held place same found begun
    rcases last _ _ found with before | ⟨-, rfl⟩
    · have := rooted'.le n
      omega
    · cases begun
      rfl

variable (spared : Spared base lineage)
include spared

theorem le_position {n : Nat} {made : Marker} (new : base.held.length ≤ n)
    (found : lineage.held[n]? = some (.marker made)) : base.builder.events.size ≤ made.position := by
  rcases Nat.eq_or_lt_of_le new with rfl | newer
  · exact spared.itself made found ▸ Nat.le_refl _
  · exact Nat.le_of_lt (spared.newer n made newer found)

/-- The builder can still be taken back to where it was. -/
theorem regains_step {lexed : Lexed} (sound : lineage.toUsage.Sound lexed) {use : Use}
    (spares : lineage.spares base.held.length use = true) {usage : Usage}
    (does : lineage.toUsage.step use = some usage) : base.builder.Regains usage.builder := by
  have regains := spared.regains
  have size := regains.size
  cases use with
  | does operation =>
      cases operation with
      | mark =>
          cases does
          exact regains.push _
      | done n kind | error n message =>
          obtain ⟨made, found, does⟩ := Option.bind_eq_some_iff.1 does
          cases does
          exact regains.complete
            (spared.le_position (of_decide_eq_true spares) (Bench.held_of_marker? found)) _
      | drop n =>
          obtain ⟨made, found, does⟩ := Option.bind_eq_some_iff.1 does
          cases does
          exact regains.drop (spared.newer n made (of_decide_eq_true spares) (Bench.held_of_marker? found))
      | rollback n =>
          have later := spared.later n
          dsimp only [Usage.step] at does
          split at does
          · rename_i made found
            cases does
            exact regains.rollbackTo (later _ _ (of_decide_eq_true spares) found rfl) _
          · rename_i made found
            cases does
            exact regains.rollbackTo (later _ _ (of_decide_eq_true spares) found rfl) _
          · contradiction
      | precede n =>
          obtain ⟨made, found, does⟩ := Option.bind_eq_some_iff.1 does
          cases does
          have stands := sound.holds.stands _ (List.mem_of_getElem? (Bench.held_of_completed? found))
          exact regains.precede sound.wellFormed (Builder.length_trail lineage.builder ▸ stands.1)
      | keep n =>
          obtain ⟨made, -, does⟩ := Option.bind_eq_some_iff.1 does
          cases does
          exact regains
      | advance =>
          cases does
          exact regains.advance
      | missing message =>
          cases does
          exact regains.missing message
      | advanceError message =>
          dsimp only [Usage.step] at does
          split at does
          · cases does
            exact regains.missing message
          · cases does
            exact (regains.push _).advance.complete (Nat.le_of_lt size) _
  | takes kind =>
      cases does
      exact regains.matches? kind
  | expects kind message =>
      cases does
      exact regains.expect kind message
  | enters =>
      cases does
      exact regains.enter
  | exits =>
      cases does
      exact regains.atDepth _

/-- A marker that is made next is at a later place, and begins where what it wraps began. -/
theorem makes {use : Use} {made : Marker} (makes : lineage.toUsage.Makes use (.marker made)) :
    base.builder.events.size < made.position ∧
      (base.held.length < lineage.newRoot use → base.builder.events.size < made.start) ∧
      (lineage.newRoot use = base.held.length →
        (made.start, made.cursor) = (base.builder.events.size, base.builder.cursor)) := by
  have size := spared.regains.size
  cases makes with
  | mark =>
      exact ⟨size, fun _ => size, fun same => absurd same (Nat.ne_of_gt spared.own.1)⟩
  | precede held =>
      exact ⟨size, fun later => spared.later _ _ _ later held rfl, fun same => spared.family _ _ _ same held rfl⟩

theorem step {lexed : Lexed} (sound : lineage.toUsage.Sound lexed) {use : Use}
    (spares : lineage.spares base.held.length use = true) (does : lineage.step use = some next) :
    Spared base next := by
  have root := spared.toRooted.root_step does
  have rooted := spared.toRooted.step does
  obtain ⟨usage, stepped, rfl⟩ := exists_step does
  have regains := spared.regains_step sound spares stepped
  obtain ⟨kept, added, held, length, becomes, few, made⟩ := Usage.mayHold_step stepped
  have more := congrArg List.length held
  rw [List.length_append] at more
  have inside := spared.own.1
  -- A marker there was before, or the only one that is new.
  have cases (n : Nat) (one : Held) (found : usage.held[n]? = some one) :
      n < lineage.held.length ∧ Held.Becomes lineage.held[n]? one ∨
        n = lineage.held.length ∧ n < usage.held.length ∧ lineage.toUsage.Makes use one := by
    have here := (List.getElem?_eq_some_iff.1 found).1
    rw [held, List.getElem?_append] at found
    split at found
    · exact .inl ⟨by omega, becomes n one found⟩
    · exact .inr ⟨by omega, here, made one (List.mem_of_getElem? found)⟩
  have old (n : Nat) (before : n < lineage.held.length) := (root n).trans (if_neg (by omega))
  have new (n : Nat) (eq : n = lineage.held.length) (lt : n < usage.held.length) :=
    (root n).trans (if_pos ⟨Nat.le_of_eq eq.symm, lt⟩)
  refine { rooted with
    regains, own := ⟨show _ < usage.held.length by omega, (old _ inside).trans spared.own.2⟩, itself := ?_,
    newer := ?_, later := ?_, family := ?_ }
  · intro made found
    rcases cases _ _ found with ⟨-, became⟩ | ⟨eq, -⟩
    · exact spared.itself made became.of_marker
    · omega
  · intro n made after found
    rcases cases _ _ found with ⟨-, became⟩ | ⟨-, -, makes⟩
    · exact spared.newer n made after became.of_marker
    · exact (spared.makes makes).1
  · intro n one place after found begun
    rcases cases _ _ found with ⟨before, became⟩ | ⟨eq, lt, makes⟩
    · obtain ⟨was, found, begun⟩ := became.begun? begun
      exact spared.later n was place (old n before ▸ after) found begun
    · cases one with
      | marker made =>
          cases begun
          exact (spared.makes makes).2.1 (new n eq lt ▸ after)
      | completed made => nomatch makes
      | gone => contradiction
  · intro n one place same found begun
    rcases cases _ _ found with ⟨before, became⟩ | ⟨eq, lt, makes⟩
    · obtain ⟨was, found, begun⟩ := became.begun? begun
      exact spared.family n was place (old n before ▸ same) found begun
    · cases one with
      | marker made =>
          cases begun
          exact (spared.makes makes).2.2 (new n eq lt ▸ same)
      | completed made => nomatch makes
      | gone => contradiction

/-- The marker itself stays as it was made, if no node is made of it. -/
theorem held_step {use : Use} (here : lineage.held[base.held.length]? = some (.marker base.builder.mark.1))
    (spares : lineage.spares base.held.length use = true) (other : use.resolves base.held.length = false)
    {usage : Usage} (does : lineage.toUsage.step use = some usage) :
    usage.held[base.held.length]? = some (.marker base.builder.mark.1) := by
  have set {n : Nat} (ne : n ≠ base.held.length) (new : Held) :
      (lineage.held.set n new)[base.held.length]? = some (.marker base.builder.mark.1) :=
    (List.getElem?_set_ne ne).trans here
  have added (one : Held) {held : List Held}
      (found : held[base.held.length]? = some (.marker base.builder.mark.1)) :
      (held ++ [one])[base.held.length]? = some (.marker base.builder.mark.1) :=
    (List.getElem?_append_left (List.getElem?_eq_some_iff.1 found).1).trans found
  have apart {n : Nat} {made : Completed} (found : lineage.completed? n = some made) :
      n ≠ base.held.length := by
    rintro rfl
    cases here.symm.trans (Bench.held_of_completed? found)
  cases use with
  | does operation =>
      cases operation with
      | mark =>
          cases does
          exact added _ here
      | done n kind | error n message =>
          obtain ⟨made, -, does⟩ := Option.bind_eq_some_iff.1 does
          cases does
          exact set (of_decide_eq_false other) _
      | drop n =>
          obtain ⟨made, -, does⟩ := Option.bind_eq_some_iff.1 does
          cases does
          exact set (Nat.ne_of_gt (of_decide_eq_true spares)) _
      | rollback n =>
          have newer : base.held.length < lineage.root n := of_decide_eq_true spares
          have ne : n ≠ base.held.length := by
            rintro rfl
            exact absurd spared.own.2 (Nat.ne_of_gt newer)
          have before {start cursor : Nat} (later : base.builder.events.size < start) :
              (lineage.toUsage.goBack n start cursor).held[base.held.length]? =
                some (.marker base.builder.mark.1) := by
            change ((lineage.held.set n .gone).map (Held.before start))[base.held.length]? = _
            rw [List.getElem?_map, set ne]
            exact congrArg some (if_pos later)
          dsimp only [Usage.step] at does
          split at does
          · rename_i found
            cases does
            exact before (spared.later n _ _ newer found rfl)
          · rename_i found
            cases does
            exact before (spared.later n _ _ newer found rfl)
          · contradiction
      | precede n =>
          obtain ⟨made, found, does⟩ := Option.bind_eq_some_iff.1 does
          cases does
          exact added _ (set (apart found) _)
      | keep n =>
          obtain ⟨made, found, does⟩ := Option.bind_eq_some_iff.1 does
          cases does
          exact set (apart found) _
      | advance | missing message =>
          cases does
          exact here
      | advanceError message =>
          dsimp only [Usage.step] at does
          split at does
          · cases does
            exact here
          · cases does
            exact added _ here
  | takes kind | expects kind message | enters | exits =>
      cases does
      exact here

theorem held_run {lexed : Lexed} (sound : lineage.toUsage.Sound lexed)
    (here : lineage.held[base.held.length]? = some (.marker base.builder.mark.1)) {more : List Use}
    (others : ∀ use ∈ more, use.resolves base.held.length = false)
    (went : lineage.runWhile (spares base.held.length) more = some next) :
    next.held[base.held.length]? = some (.marker base.builder.mark.1) := by
  induction more generalizing lineage with
  | nil =>
      cases went
      exact here
  | cons use more ih =>
      obtain ⟨other, others⟩ := List.forall_mem_cons.1 others
      unfold runWhile at went
      split at went
      · rename_i allowed
        obtain ⟨between, does, went⟩ := Option.bind_eq_some_iff.1 went
        refine ih (spared.step sound allowed does) (sound_step sound does) ?_ others went
        obtain ⟨usage, stepped, rfl⟩ := exists_step does
        exact spared.held_step here allowed other stepped
      · contradiction

/-- What is live of the marker, or of what wraps it, takes everything back. -/
theorem exists_rollback {n : Nat} {held : Held} (root : lineage.root n = base.held.length)
    (found : lineage.held[n]? = some held) (live : held ≠ .gone) :
    ∃ back, lineage.toUsage.step (.does (.rollback n)) = some back ∧
      back.builder = { base.builder with depth := lineage.builder.depth } := by
  have place := spared.family n held
  cases held with
  | marker made | completed made =>
      obtain ⟨start, cursor⟩ := Prod.ext_iff.1 (place _ root found rfl)
      refine ⟨_, by rw [Usage.step, found], ?_⟩
      exact (congrArg₂ lineage.builder.rollbackTo start cursor).trans spared.regains.back
  | gone => contradiction

end Spared

/-- Whatever is done with live markers, the usage is sound and each marker has a root. -/
theorem sound_run {lexed : Lexed} {uses : List Use} {lineage : Lineage}
    (came : (ofLexed lexed).run uses = some lineage) : lineage.toUsage.Sound lexed ∧ lineage.Rooted := by
  refine runWhile_induct (motive := fun lineage => lineage.toUsage.Sound lexed ∧ lineage.Rooted) ?_
    ⟨Usage.sound_ofLexed lexed, rfl, fun _ => Nat.le_refl _⟩ came
  rintro lineage next use ⟨sound, rooted⟩ - does
  exact ⟨sound_step sound does, rooted.step does⟩

/-- A marker is made, and then anything is done that leaves alone what was begun before: newer markers are
resolved or taken back, tokens passed, errors recorded, older nodes wrapped and the wrappers resolved. Then
taking everything back to the marker, if it has not become a node, leaves the builder just as it was before
the marker was made; and so does taking back to the node that it has become, or to any marker around that. -/
theorem builder_rollback {lexed : Lexed} {uses more : List Use} {base marked after : Lineage}
    (came : (ofLexed lexed).run uses = some base) (made : base.step (.does .mark) = some marked)
    (went : marked.runWhile (spares base.held.length) more = some after) :
    ((∀ use ∈ more, use.resolves base.held.length = false) →
      ∃ back, after.toUsage.step (.does (.rollback base.held.length)) = some back ∧
        back.builder = { base.builder with depth := after.builder.depth }) ∧
    ∀ n held, after.root n = base.held.length → after.held[n]? = some held → held ≠ .gone →
      ∃ back, after.toUsage.step (.does (.rollback n)) = some back ∧
        back.builder = { base.builder with depth := after.builder.depth } := by
  obtain ⟨sound, rooted⟩ := sound_run came
  have spared := Spared.start sound rooted made
  have soundMarked := sound_step sound made
  have last := runWhile_induct
    (motive := fun lineage => lineage.toUsage.Sound lexed ∧ Spared base lineage)
    (fun ⟨sound, spared⟩ allowed does => ⟨sound_step sound does, spared.step sound allowed does⟩)
    ⟨soundMarked, spared⟩ went
  refine ⟨fun others => ?_, fun n held => last.2.exists_rollback⟩
  have here : marked.held[base.held.length]? = some (.marker base.builder.mark.1) := by
    obtain ⟨usage, stepped, rfl⟩ := exists_step made
    cases stepped
    exact List.getElem?_concat_length
  exact last.2.exists_rollback last.2.own.2 (spared.held_run soundMarked here others went) nofun

/-- A name is finished. After the mark it is wrapped twice, another wrapper is given up, and a newer node is
taken back; then the marker becomes a node that is wrapped itself. -/
theorem builder_rollback_of_wrapped :
    let name := Token.zeroWidth .identifier {} 0
    let lexed : Lexed := ⟨[name, name, name], []⟩
    let uses : List Use := [.does .mark, .does .advance, .does (.done 0 .referenceExpression)]
    let more : List Use := [.does (.precede 0), .does .advance, .does (.done 2 .callExpression),
      .does (.precede 2), .does .mark, .does .advance, .does (.error 4 "name"), .does (.rollback 4),
      .does (.missing "name"), .does (.drop 3)]
    let still : List Use := more ++ [.does (.done 1 .tupleExpression), .does (.precede 1)]
    ∃ base marked after last, (ofLexed lexed).run uses = some base ∧ base.step (.does .mark) = some marked ∧
      marked.runWhile (spares base.held.length) more = some after ∧
      (∃ back, after.toUsage.step (.does (.rollback base.held.length)) = some back ∧
        back.builder = { base.builder with depth := after.builder.depth }) ∧
      marked.runWhile (spares base.held.length) still = some last ∧
      ∃ back, last.toUsage.step (.does (.rollback 5)) = some back ∧
        back.builder = { base.builder with depth := last.builder.depth } := by
  intro name lexed uses more still
  have runs : ∃ base ∈ (ofLexed lexed).run uses, base.held.length = 1 ∧
      ∃ marked ∈ base.step (.does .mark), ∃ after ∈ marked.runWhile (spares 1) more,
        ∃ last ∈ marked.runWhile (spares 1) still, last.root 5 = 1 ∧
          ∃ held ∈ last.held[5]?, held.begun?.isSome = true := by
    subst still more uses lexed name
    decide +kernel
  obtain ⟨base, came, one, marked, made, after, went, last, went', root, held, found, live⟩ := runs
  refine ⟨base, marked, after, last, came, made, one ▸ went, ?_, one ▸ went', ?_⟩
  · refine (builder_rollback came made (one ▸ went)).1 fun use mem => ?_
    subst still more
    rw [one]
    simp only [List.mem_cons, List.not_mem_nil, or_false] at mem
    rcases mem with rfl | rfl | rfl | rfl | rfl | rfl | rfl | rfl | rfl | rfl <;> rfl
  · refine (builder_rollback came made (one ▸ went')).2 5 held (root.trans one.symm) found ?_
    rintro rfl
    contradiction

end Lineage
end StarlarkSyntax
