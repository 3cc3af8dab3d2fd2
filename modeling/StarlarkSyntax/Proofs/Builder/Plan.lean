import Mathlib.Data.List.Nodup
import Mathlib.Data.List.TakeWhile
import StarlarkSyntax.Proofs.Builder.Draft
/-!
# Plans: events with the wrappers where they begin

Between the events of a builder and the pages of a draft stand plans. A plan has an act for each
event, but the links are followed already: the act that opens a marker also opens its wrappers, and
the acts of the wrappers themselves do nothing. Markers have the numbers that they have in a draft.

`Plan.step` says what the operations do to a plan. Taking back is to cut the acts off where a marker
was made, and what is left has only the wrappers that there were then (`Act.cut`).
-/

set_option autoImplicit false

namespace StarlarkSyntax

/-- An event, with the wrappers where they begin. -/
inductive Act where
  /-- A marker begins here, and so do its wrappers, of which the innermost is listed first. -/
  | opening (marker : Nat) (wrappers : List Nat)
  /-- A wrapper was made here. -/
  | wrapper (marker : Nat)
  | finish
  | token
  | missing (message : String)
deriving DecidableEq, Inhabited

namespace Act

/-- The marker that was made by an act. -/
def owner? : Act → Option Nat
  | opening marker _ => some marker
  | wrapper marker => some marker
  | _ => none

/-- What begins with an act, innermost first. -/
def chain : Act → List Nat
  | opening marker wrappers => marker :: wrappers
  | _ => []

/-- The act without the wrappers that were made by some marker or later. -/
def restrict (marker : Nat) : Act → Act
  | opening first wrappers => opening first (wrappers.filter (· < marker))
  | act => act

/-- The act with one more wrapper around a node. -/
def extend (made wrapper : Nat) : Act → Act
  | opening first wrappers =>
    if (first :: wrappers).getLast? = some made then opening first (wrappers ++ [wrapper])
    else opening first wrappers
  | act => act

@[simp] theorem owner?_restrict (marker : Nat) (act : Act) :
    (act.restrict marker).owner? = act.owner? := by
  cases act <;> rfl

@[simp] theorem owner?_extend (made wrapper : Nat) (act : Act) :
    (act.extend made wrapper).owner? = act.owner? := by
  cases act with
  | opening first wrappers =>
      simp only [extend]
      split <;> rfl
  | wrapper | finish | token | missing => rfl

/-- What begins anywhere in some acts. -/
def opened (acts : List Act) : List Nat := acts.flatMap chain

/-- The markers that were made by some acts. -/
def owners (acts : List Act) : List Nat := acts.filterMap owner?

/-- The acts before a marker was made, with only the wrappers that there were then. -/
def cut (marker : Nat) (acts : List Act) : List Act :=
  (acts.takeWhile (·.owner? ≠ some marker)).map (restrict marker)

@[simp] theorem opened_nil : opened [] = [] := rfl

@[simp] theorem opened_cons (act : Act) (acts : List Act) :
    opened (act :: acts) = act.chain ++ opened acts := rfl

@[simp] theorem opened_append (s t : List Act) : opened (s ++ t) = opened s ++ opened t :=
  List.flatMap_append

@[simp] theorem owners_append (s t : List Act) : owners (s ++ t) = owners s ++ owners t :=
  List.filterMap_append

theorem opened_map_restrict (marker : Nat) (acts : List Act) :
    (opened (acts.map (restrict marker))).Sublist (opened acts) := by
  induction acts with
  | nil => exact List.Sublist.refl _
  | cons act acts ih =>
      refine List.Sublist.append ?_ ih
      cases act with
      | opening first wrappers => exact List.filter_sublist.cons_cons _
      | wrapper | finish | token | missing => exact List.Sublist.refl _

@[simp] theorem owners_map_restrict (marker : Nat) (acts : List Act) :
    owners (acts.map (restrict marker)) = owners acts := by
  simp [owners, List.filterMap_map]

@[simp] theorem owners_map_extend (made wrapper : Nat) (acts : List Act) :
    owners (acts.map (extend made wrapper)) = owners acts := by
  simp [owners, List.filterMap_map]

theorem mem_owners_of_mem {acts : List Act} {act : Act} {marker : Nat} (mem : act ∈ acts)
    (owner : act.owner? = some marker) : marker ∈ owners acts :=
  List.mem_filterMap.2 ⟨act, mem, owner⟩

theorem mem_opened_of_mem {acts : List Act} {act : Act} {marker : Nat} (mem : act ∈ acts)
    (begun : marker ∈ act.chain) : marker ∈ opened acts :=
  List.mem_flatMap.2 ⟨act, mem, begun⟩

/-- The acts as they can be: markers are made in order, and what begins has been made once. -/
structure Ordered (acts : List Act) : Prop where
  sorted : (owners acts).Pairwise (· < ·)
  nodup : (opened acts).Nodup
  owned : ∀ marker ∈ opened acts, marker ∈ owners acts
  begun : ∀ marker ∈ owners acts, marker ∈ opened acts
  chains : ∀ act ∈ acts, act.chain.Pairwise (· < ·)

/-- Where a marker was made, and what has been made before and since. -/
theorem Ordered.split {acts : List Act} (ordered : Ordered acts) {marker : Nat}
    (mem : marker ∈ owners acts) : ∃ before act after, acts = before ++ act :: after ∧
      act.owner? = some marker ∧ (∀ other ∈ owners before, other < marker) ∧
      (∀ other ∈ owners after, marker < other) ∧
      acts.takeWhile (·.owner? ≠ some marker) = before := by
  obtain ⟨act, mem, owner⟩ := List.mem_filterMap.1 mem
  obtain ⟨before, after, rfl⟩ := List.append_of_mem mem
  have parts : owners (before ++ act :: after) = owners before ++ marker :: owners after := by
    rw [owners_append]
    simp [owners, owner]
  have sorted := ordered.sorted
  rw [parts] at sorted
  obtain ⟨-, sorted, apart⟩ := List.pairwise_append.1 sorted
  have earlier : ∀ other ∈ owners before, other < marker := fun other mem =>
    apart other mem marker List.mem_cons_self
  refine ⟨before, act, after, rfl, owner, earlier, (List.pairwise_cons.1 sorted).1, ?_⟩
  rw [List.takeWhile_append_of_pos]
  · simp [owner]
  · intro other mem
    simp only [ne_eq, decide_eq_true_eq]
    intro same
    exact Nat.lt_irrefl _ (earlier marker (mem_owners_of_mem mem same))

theorem Ordered.cut_split {acts : List Act} (ordered : Ordered acts) {marker : Nat}
    (mem : marker ∈ owners acts) : ∃ before act after, acts = before ++ act :: after ∧
      act.owner? = some marker ∧ (∀ other ∈ owners before, other < marker) ∧
      (∀ other ∈ owners after, marker < other) ∧
      cut marker acts = before.map (restrict marker) := by
  obtain ⟨before, act, after, same, owner, earlier, later, taken⟩ := ordered.split mem
  exact ⟨before, act, after, same, owner, earlier, later, by rw [cut, taken]⟩

theorem cut_append {acts : List Act} {marker : Nat} (mem : marker ∈ owners acts)
    (more : List Act) : cut marker (acts ++ more) = cut marker acts := by
  obtain ⟨act, mem, owner⟩ := List.mem_filterMap.1 mem
  have stops : (acts.takeWhile (·.owner? ≠ some marker)).length ≠ acts.length := by
    intro all
    have whole := (List.takeWhile_prefix _).eq_of_length all
    have passes := List.mem_takeWhile_imp (whole ▸ mem)
    simp [owner] at passes
  rw [cut, cut, List.takeWhile_append, if_neg stops]

theorem cut_last {acts : List Act} {act : Act} {marker : Nat} (new : marker ∉ owners acts)
    (owner : act.owner? = some marker) :
    cut marker (acts ++ [act]) = acts.map (restrict marker) := by
  have taken : (acts ++ [act]).takeWhile (·.owner? ≠ some marker) = acts := by
    rw [List.takeWhile_append_of_pos]
    · simp [owner]
    · intro other mem
      simp only [ne_eq, decide_eq_true_eq]
      exact fun same => new (mem_owners_of_mem mem same)
  rw [cut, taken]

theorem chain_of_plain {act : Act} (plain : act.owner? = none) : act.chain = [] := by
  cases act <;> first | rfl | contradiction

/-- Wrappers that are made later make no difference to what is cut off before them. -/
theorem cut_extend {made outer marker : Nat} (later : marker ≤ outer) (acts : List Act) :
    cut marker (acts.map (extend made outer)) = cut marker acts := by
  have same (act : Act) : (act.extend made outer).restrict marker = act.restrict marker := by
    cases act with
    | opening first wrappers =>
        simp only [extend]
        split
        · simp [restrict, Nat.not_lt.2 later]
        · rfl
    | wrapper | finish | token | missing => rfl
  unfold cut
  induction acts with
  | nil => rfl
  | cons act acts ih =>
      simp only [List.map_cons, List.takeWhile_cons, owner?_extend]
      split
      · simp only [List.map_cons, same, ih]
      · rfl

theorem restrict_restrict {earlier later : Nat} (le : earlier ≤ later) (act : Act) :
    (act.restrict later).restrict earlier = act.restrict earlier := by
  cases act with
  | opening first wrappers =>
      simp only [restrict, List.filter_filter]
      congr 1
      refine List.filter_congr fun wrapper _ => ?_
      by_cases before : wrapper < earlier
      · simp [before, Nat.lt_of_lt_of_le before le]
      · simp [before]
  | wrapper | finish | token | missing => rfl

theorem opened_cut_sublist (marker : Nat) (acts : List Act) : (opened (cut marker acts)).Sublist (opened acts) := by
  obtain ⟨rest, whole⟩ := List.takeWhile_prefix (·.owner? ≠ some marker) (l := acts)
  refine (opened_map_restrict marker _).trans ?_
  rw [← congrArg opened whole, opened_append]
  exact List.sublist_append_left _ _

namespace Ordered

variable {acts : List Act} (ordered : Ordered acts)
include ordered

theorem cut_cut {earlier later : Nat} (lt : earlier < later) (mem : earlier ∈ owners acts)
    (mem' : later ∈ owners acts) : cut earlier (cut later acts) = cut earlier acts := by
  obtain ⟨before, act, after, rfl, owner, below, above, cut'⟩ := ordered.cut_split mem'
  have among : earlier ∈ owners before := by
    rw [owners_append, List.mem_append] at mem
    refine mem.resolve_right fun mem => ?_
    simp only [owners, List.filterMap_cons, owner, List.mem_cons] at mem
    rcases mem with rfl | mem
    · exact Nat.lt_irrefl _ lt
    · exact Nat.lt_asymm lt (above earlier mem)
  rw [cut', cut_append among]
  unfold cut
  clear cut' ordered below mem mem'
  induction before with
  | nil => rfl
  | cons first before ih =>
      simp only [List.map_cons, List.takeWhile_cons, owner?_restrict]
      split
      · rename_i other
        have among : earlier ∈ owners before := by
          rw [show first :: before = [first] ++ before from rfl, owners_append] at among
          refine (List.mem_append.1 among).resolve_left fun here => ?_
          simp only [owners, List.filterMap_cons, List.filterMap_nil] at here
          cases is : first.owner? with
          | none => simp [is] at here
          | some marker =>
              simp only [is, List.mem_singleton] at here
              simp [is, here] at other
        simp only [List.map_cons, ih among, restrict_restrict (Nat.le_of_lt lt)]
      · rfl

theorem mem_owners_cut {marker : Nat} (mem : marker ∈ owners acts) (other : Nat) :
    other ∈ owners (cut marker acts) ↔ other ∈ owners acts ∧ other < marker := by
  obtain ⟨before, act, after, rfl, owner, below, above, cut'⟩ := ordered.cut_split mem
  rw [cut', owners_map_restrict, owners_append, List.mem_append]
  constructor
  · exact fun mem => ⟨.inl mem, below other mem⟩
  · rintro ⟨mem | mem, lt⟩
    · exact mem
    · simp only [owners, List.filterMap_cons, owner, List.mem_cons] at mem
      rcases mem with rfl | mem
      · exact absurd lt (Nat.lt_irrefl _)
      · exact absurd lt (Nat.lt_asymm (above other mem))

theorem lt_of_mem_opened_cut {marker : Nat} (mem : marker ∈ owners acts) {other : Nat}
    (begun : other ∈ opened (cut marker acts)) : other < marker := by
  obtain ⟨before, act, after, rfl, owner, below, above, cut'⟩ := ordered.cut_split mem
  rw [cut'] at begun
  obtain ⟨restricted, among, begun⟩ := List.mem_flatMap.1 begun
  obtain ⟨act, taken, rfl⟩ := List.mem_map.1 among
  cases act with
  | opening first wrappers =>
      rcases List.mem_cons.1 begun with same | begun
      · have made : first ∈ owners before := List.mem_filterMap.2 ⟨.opening first wrappers, taken, rfl⟩
        rw [same]
        exact below first made
      · simpa using (List.mem_filter.1 begun).2
  | wrapper | finish | token | missing => contradiction

theorem cut {marker : Nat} (mem : marker ∈ owners acts) : Ordered (Act.cut marker acts) where
  sorted := by
    have whole : (owners (Act.cut marker acts)).Sublist (owners acts) := by
      rw [Act.cut, owners_map_restrict]
      exact (List.takeWhile_sublist _).filterMap _
    exact ordered.sorted.sublist whole
  nodup := ordered.nodup.sublist (opened_cut_sublist marker acts)
  owned := fun other begun => (ordered.mem_owners_cut mem other).2
    ⟨ordered.owned other ((opened_cut_sublist marker acts).subset begun),
      ordered.lt_of_mem_opened_cut mem begun⟩
  begun := by
    intro other owned
    obtain ⟨owned, lt⟩ := (ordered.mem_owners_cut mem other).1 owned
    obtain ⟨before, last, after, parts, owner, below, above, cut'⟩ := ordered.cut_split mem
    obtain ⟨act, mem', begun⟩ := List.mem_flatMap.1 (ordered.begun other owned)
    rw [cut']
    cases act with
    | opening first wrappers =>
        have least : first ≤ other := by
          rcases List.mem_cons.1 begun with same | inside
          · exact Nat.le_of_eq same.symm
          · exact Nat.le_of_lt ((List.pairwise_cons.1 (ordered.chains _ mem')).1 other inside)
        have taken : .opening first wrappers ∈ before := by
          rw [parts] at mem'
          refine (List.mem_append.1 mem').resolve_right fun late => ?_
          have : marker ≤ first := by
            rcases List.mem_cons.1 late with is | late
            · rw [← is] at owner
              exact Nat.le_of_eq (Option.some.inj owner).symm
            · have made : first ∈ owners after := List.mem_filterMap.2 ⟨_, late, rfl⟩
              exact Nat.le_of_lt (above first made)
          omega
        refine mem_opened_of_mem (List.mem_map_of_mem taken) ?_
        rcases List.mem_cons.1 begun with same | inside
        · exact same ▸ List.mem_cons_self
        · exact List.mem_cons_of_mem _ (List.mem_filter.2 ⟨inside, by simpa using lt⟩)
    | wrapper | finish | token | missing => contradiction
  chains := by
    intro act mem
    obtain ⟨act, taken, rfl⟩ := List.mem_map.1 mem
    have chain := ordered.chains act ((List.takeWhile_sublist _).subset taken)
    cases act with
    | opening first wrappers => exact chain.sublist (List.filter_sublist.cons_cons _)
    | wrapper | finish | token | missing => exact .nil

/-- An act that makes no marker can be added. -/
theorem push {act : Act} (plain : act.owner? = none) : Ordered (acts ++ [act]) := by
  have noChain := chain_of_plain plain
  have noOwner : owners [act] = [] := by
    simp [owners, plain]
  refine ⟨?_, ?_, ?_, ?_, ?_⟩
  · rw [owners_append, noOwner, List.append_nil]
    exact ordered.sorted
  · simpa [noChain] using ordered.nodup
  · simpa [noChain, noOwner] using ordered.owned
  · simpa [noChain, noOwner] using ordered.begun
  · refine List.forall_mem_append.2 ⟨ordered.chains, List.forall_mem_singleton.2 ?_⟩
    rw [noChain]
    exact .nil

/-- A new marker can be made. -/
theorem mark {marker : Nat} (new : ∀ other ∈ owners acts, other < marker) :
    Ordered (acts ++ [.opening marker []]) where
  sorted := by
    rw [owners_append]
    refine List.pairwise_append.2 ⟨ordered.sorted, List.pairwise_singleton _ _, ?_⟩
    intro other mem last is
    cases List.mem_singleton.1 is
    exact new other mem
  nodup := by
    rw [opened_append]
    refine List.nodup_append.2 ⟨ordered.nodup, List.nodup_singleton _, ?_⟩
    intro other mem last is same
    cases List.mem_singleton.1 is
    exact Nat.lt_irrefl _ (same ▸ new other (ordered.owned other mem))
  owned := by
    intro other mem
    rw [opened_append, List.mem_append] at mem
    rw [owners_append, List.mem_append]
    exact mem.imp (ordered.owned other) fun is => is
  begun := by
    intro other mem
    rw [owners_append, List.mem_append] at mem
    rw [opened_append, List.mem_append]
    exact mem.imp (ordered.begun other) fun is => is
  chains := List.forall_mem_append.2 ⟨ordered.chains,
    List.forall_mem_singleton.2 (List.pairwise_singleton _ _)⟩

/-- A wrapper can be put around what is outermost so far. -/
theorem wrap {before after : List Act} {first outer : Nat} {wrappers : List Nat}
    (same : acts = before ++ .opening first wrappers :: after)
    (new : ∀ other ∈ owners acts, other < outer) :
    Ordered (before ++ .opening first (wrappers ++ [outer]) :: after ++ [.wrapper outer]) := by
  have owners' : owners (before ++ .opening first (wrappers ++ [outer]) :: after ++
      [.wrapper outer]) = owners acts ++ [outer] := by
    rw [same]
    simp [owners, owner?]
  have opened' : (opened (before ++ .opening first (wrappers ++ [outer]) :: after ++
      [.wrapper outer])).Perm (outer :: opened acts) := by
    rw [same]
    simp only [opened_append, opened_cons, chain, opened_nil, List.append_nil]
    have moved : ((opened before ++ first :: wrappers) ++ outer :: opened after).Perm
        (outer :: ((opened before ++ first :: wrappers) ++ opened after)) := List.perm_middle
    simpa using moved
  refine ⟨?_, ?_, ?_, ?_, ?_⟩
  · rw [owners']
    refine List.pairwise_append.2 ⟨ordered.sorted, List.pairwise_singleton _ _, ?_⟩
    intro other mem last is
    cases List.mem_singleton.1 is
    exact new other mem
  · refine opened'.nodup_iff.2 (List.nodup_cons.2 ⟨fun mem => ?_, ordered.nodup⟩)
    exact Nat.lt_irrefl _ (new outer (ordered.owned outer mem))
  · intro other mem
    rw [owners', List.mem_append, List.mem_singleton]
    rcases List.mem_cons.1 (opened'.mem_iff.1 mem) with same | mem
    · exact .inr same
    · exact .inl (ordered.owned other mem)
  · intro other mem
    rw [owners'] at mem
    refine opened'.mem_iff.2 ?_
    rcases List.mem_append.1 mem with mem | mem
    · exact List.mem_cons_of_mem _ (ordered.begun other mem)
    · exact List.mem_singleton.1 mem ▸ List.mem_cons_self
  · have chains := ordered.chains
    rw [same] at chains
    obtain ⟨early, late⟩ := List.forall_mem_append.1 chains
    obtain ⟨here, late⟩ := List.forall_mem_cons.1 late
    refine List.forall_mem_append.2 ⟨List.forall_mem_append.2 ⟨early,
      List.forall_mem_cons.2 ⟨?_, late⟩⟩, List.forall_mem_singleton.2 .nil⟩
    change ((first :: wrappers) ++ [outer]).Pairwise _
    refine List.pairwise_append.2 ⟨here, List.pairwise_singleton _ _, ?_⟩
    intro other mem last is
    cases List.mem_singleton.1 is
    refine new other (ordered.owned other ?_)
    rw [same]
    exact mem_opened_of_mem (List.mem_append_right _ List.mem_cons_self) mem

/-- Only one beginning ends with a node. -/
theorem map_extend {before after : List Act} {first made : Nat} {wrappers : List Nat}
    (same : acts = before ++ .opening first wrappers :: after)
    (last : (first :: wrappers).getLast? = some made) (outer : Nat) :
    acts.map (extend made outer) = before ++ .opening first (wrappers ++ [outer]) :: after := by
  have nodup := ordered.nodup
  rw [same, opened_append, opened_cons] at nodup
  obtain ⟨-, nodup, apart⟩ := List.nodup_append.1 nodup
  obtain ⟨-, -, apart'⟩ := List.nodup_append.1 nodup
  have among : made ∈ (Act.opening first wrappers).chain := List.mem_of_getLast? last
  have unchanged (acts : List Act) (away : made ∉ opened acts) :
      acts.map (extend made outer) = acts := by
    refine (List.map_congr_left fun act mem => ?_).trans (List.map_id acts)
    cases act with
    | opening first wrappers =>
        have other : (first :: wrappers).getLast? ≠ some made := fun last =>
          away (mem_opened_of_mem mem (List.mem_of_getLast? last))
        simp only [extend, if_neg other]
        rfl
    | wrapper | finish | token | missing => rfl
  rw [same, List.map_append, List.map_cons,
    unchanged before fun mem => apart made mem made (List.mem_append_left _ among) rfl,
    unchanged after fun mem => apart' made among made mem rfl]
  simp only [extend, if_pos last]

end Ordered

end Act
end StarlarkSyntax
