import Mathlib.Data.List.Perm.Subperm
import StarlarkSyntax.Proofs.Builder.Follow
import StarlarkSyntax.Proofs.Builder.Since
/-!
# Builders describe plans

The events of a builder say what the acts of a plan say, but where the plan lists the wrappers of a
marker, the events have a chain of links (`Describes`). The markers of a bench hold the places of
their acts, and the cursor of the page that is remembered with them (`Stands`).

Cutting the events off takes back the links to what is gone. Since markers are made in order, those
are the links to the wrappers that were made since, wherever in a chain they are.
-/

set_option autoImplicit false

namespace StarlarkSyntax

namespace Act

/-- The place of the act that made a marker. -/
def place (acts : List Act) (marker : Nat) : Nat :=
  (acts.takeWhile (·.owner? ≠ some marker)).length

theorem place_eq_length_cut (acts : List Act) (marker : Nat) :
    place acts marker = (cut marker acts).length := by
  rw [cut, List.length_map, place]

theorem place_append {acts : List Act} {marker : Nat} (mem : marker ∈ owners acts)
    (more : List Act) : place (acts ++ more) marker = place acts marker := by
  rw [place_eq_length_cut, place_eq_length_cut, cut_append mem]

theorem place_lt_length {acts : List Act} {marker : Nat} (mem : marker ∈ owners acts) :
    place acts marker < acts.length := by
  obtain ⟨act, mem, owner⟩ := List.mem_filterMap.1 mem
  have whole := List.takeWhile_prefix (·.owner? ≠ some marker) (l := acts)
  refine Nat.lt_of_le_of_ne whole.length_le fun all => ?_
  have passes := List.mem_takeWhile_imp (whole.eq_of_length all ▸ mem)
  simp [owner] at passes

theorem place_extend (made outer : Nat) (acts : List Act) (marker : Nat) :
    place (acts.map (extend made outer)) marker = place acts marker := by
  unfold place
  induction acts with
  | nil => rfl
  | cons act acts ih =>
      simp only [List.map_cons, List.takeWhile_cons, owner?_extend]
      split
      · simp only [List.length_cons, ih]
      · rfl

theorem place_last {acts : List Act} {act : Act} {marker : Nat} (new : marker ∉ owners acts)
    (owner : act.owner? = some marker) : place (acts ++ [act]) marker = acts.length := by
  rw [place_eq_length_cut, cut_last new owner, List.length_map]

namespace Ordered

variable {acts : List Act} (ordered : Ordered acts)
include ordered

/-- The act that made a marker, and what is on both sides of it. -/
theorem at_place {marker : Nat} (mem : marker ∈ owners acts) : ∃ before act after,
    acts = before ++ act :: after ∧ act.owner? = some marker ∧
      (∀ other ∈ owners before, other < marker) ∧ (∀ other ∈ owners after, marker < other) ∧
      place acts marker = before.length := by
  obtain ⟨before, act, after, parts, owner, below, above, taken⟩ := ordered.split mem
  exact ⟨before, act, after, parts, owner, below, above, by rw [place, taken]⟩

theorem place_lt_place {marker other : Nat} (mem : marker ∈ owners acts)
    (mem' : other ∈ owners acts) (lt : marker < other) : place acts marker < place acts other := by
  obtain ⟨before, act, after, parts, owner, below, above, place'⟩ := ordered.at_place mem'
  have among : marker ∈ owners before := by
    rw [parts, owners_append, List.mem_append] at mem
    refine mem.resolve_right fun late => ?_
    simp only [owners, List.filterMap_cons, owner, List.mem_cons] at late
    rcases late with same | late
    · omega
    · have := above marker late
      omega
  rw [place', parts, place_append among]
  exact place_lt_length among

theorem getElem?_place {marker : Nat} (mem : marker ∈ owners acts) :
    ∃ act, acts[place acts marker]? = some act ∧ act.owner? = some marker := by
  obtain ⟨before, act, after, parts, owner, -, -, place'⟩ := ordered.at_place mem
  exact ⟨act, by rw [place', parts]; simp, owner⟩

theorem eq_place {i marker : Nat} {act : Act} (found : acts[i]? = some act)
    (owner : act.owner? = some marker) : i = place acts marker := by
  have mem : marker ∈ owners acts := mem_owners_of_mem (List.mem_of_getElem? found) owner
  obtain ⟨before, act', after, parts, owner', below, above, place'⟩ := ordered.at_place mem
  rw [place']
  rw [parts] at found
  rcases Nat.lt_trichotomy i before.length with lt | same | gt
  · rw [List.getElem?_append_left lt] at found
    have := below marker (mem_owners_of_mem (List.mem_of_getElem? found) owner)
    omega
  · exact same
  · rw [List.getElem?_append_right (Nat.le_of_lt gt)] at found
    obtain ⟨k, more⟩ : ∃ k, i - before.length = k + 1 := ⟨i - before.length - 1, by omega⟩
    rw [more, List.getElem?_cons_succ] at found
    have := above marker (mem_owners_of_mem (List.mem_of_getElem? found) owner)
    omega

/-- No chain is longer than all the acts. -/
theorem length_chain_le {act : Act} (mem : act ∈ acts) : act.chain.length ≤ acts.length := by
  have nodup : act.chain.Nodup := (ordered.chains act mem).imp fun lt => Nat.ne_of_lt lt
  have owned : act.chain ⊆ owners acts := fun marker begun =>
    ordered.owned marker (mem_opened_of_mem mem begun)
  calc
    act.chain.length ≤ (owners acts).length := (List.subperm_of_subset nodup owned).length_le
    _ ≤ acts.length := List.length_filterMap_le _ _

theorem place_cut {marker root : Nat} (mem : marker ∈ owners acts) (mem' : root ∈ owners acts)
    (lt : marker < root) : place (Act.cut root acts) marker = place acts marker := by
  rw [place_eq_length_cut, place_eq_length_cut, ordered.cut_cut lt mem mem']

end Ordered

/-- Each of some markers is wrapped by the next, and the last by nothing. -/
def Linked (next : Nat → Option Nat) : List Nat → Prop
  | [] => True
  | [marker] => next marker = none
  | marker :: outer :: chain => next marker = some outer ∧ Linked next (outer :: chain)

/-- The event that says what an act says, where each marker has a place and may have a wrapper. -/
def event (completion : Nat → Completion) (next : Nat → Option Nat) (place : Nat → Nat) :
    Act → Event
  | opening marker _ => .start (completion marker) ((next marker).map place)
  | wrapper marker => .start (completion marker) ((next marker).map place)
  | finish => .finish
  | token => .token
  | missing message => .error message

variable {next : Nat → Option Nat}

theorem linked_congr {next' : Nat → Option Nat} {chain : List Nat}
    (same : ∀ marker ∈ chain, next' marker = next marker) (linked : Linked next chain) :
    Linked next' chain := by
  induction chain with
  | nil => trivial
  | cons marker chain ih =>
      obtain ⟨first, rest⟩ := List.forall_mem_cons.1 same
      cases chain with
      | nil => exact first.trans linked
      | cons outer chain => exact ⟨first.trans linked.1, ih rest linked.2⟩

theorem next_of_linked {chain : List Nat} (linked : Linked next chain) {marker outer : Nat}
    (mem : marker ∈ chain) (wrapped : next marker = some outer)
    (order : chain.Pairwise (· < ·)) : outer ∈ chain ∧ marker < outer := by
  induction chain with
  | nil => contradiction
  | cons first chain ih =>
      obtain ⟨below, order⟩ := List.pairwise_cons.1 order
      cases chain with
      | nil =>
          cases List.mem_singleton.1 mem
          cases linked.symm.trans wrapped
      | cons second chain =>
          rcases List.mem_cons.1 mem with rfl | mem
          · cases linked.1.symm.trans wrapped
            exact ⟨by simp, below outer List.mem_cons_self⟩
          · obtain ⟨among, lt⟩ := ih linked.2 mem order
            exact ⟨List.mem_cons_of_mem _ among, lt⟩

theorem next_last {chain : List Nat} (linked : Linked next chain) {last : Nat}
    (is : chain.getLast? = some last) : next last = none := by
  induction chain with
  | nil => contradiction
  | cons first chain ih =>
      cases chain with
      | nil =>
          cases is
          exact linked
      | cons second chain => exact ih linked.2 (by simpa [List.getLast?_cons_cons] using is)

/-- What nothing is wrapped around is the last in its chain. -/
theorem last_of_linked {chain : List Nat} (linked : Linked next chain) {marker : Nat}
    (mem : marker ∈ chain) (outermost : next marker = none) : chain.getLast? = some marker := by
  induction chain with
  | nil => contradiction
  | cons first chain ih =>
      cases chain with
      | nil =>
          cases List.mem_singleton.1 mem
          rfl
      | cons second chain =>
          rcases List.mem_cons.1 mem with rfl | mem
          · cases linked.1.symm.trans outermost
          · rw [List.getLast?_cons_cons]
            exact ih linked.2 mem

/-- The wrappers that were made by some marker or later are taken back. -/
theorem linked_filter {chain : List Nat} {root : Nat} (linked : Linked next chain)
    (order : chain.Pairwise (· < ·)) :
    Linked (fun marker => (next marker).filter (· < root)) (chain.filter (· < root)) := by
  induction chain with
  | nil => trivial
  | cons first chain ih =>
      obtain ⟨below, order⟩ := List.pairwise_cons.1 order
      by_cases before : first < root
      · rw [List.filter_cons_of_pos (by simpa using before)]
        cases chain with
        | nil =>
            show (next first).filter _ = none
            rw [show next first = none from linked]
            rfl
        | cons second chain =>
            have ih := ih linked.2 order
            by_cases before' : second < root
            · rw [List.filter_cons_of_pos (by simpa using before')] at ih ⊢
              refine ⟨?_, ih⟩
              dsimp only
              rw [linked.1]
              simp [before']
            · have none : (second :: chain).filter (· < root) = [] := by
                rw [List.filter_eq_nil_iff]
                intro other mem
                rcases List.mem_cons.1 mem with rfl | mem
                · simpa using before'
                · have := (List.pairwise_cons.1 order).1 other mem
                  simp only [decide_eq_true_eq]
                  omega
              rw [none]
              show (next first).filter _ = Option.none
              rw [linked.1]
              simpa using before'
      · have none : chain.filter (· < root) = [] := by
          rw [List.filter_eq_nil_iff]
          intro other mem
          have := below other mem
          simp only [decide_eq_true_eq]
          omega
        rw [List.filter_cons_of_neg (by simpa using before), none]
        trivial

theorem linked_concat {chain : List Nat} {made outer : Nat} (linked : Linked next chain)
    (last : chain.getLast? = some made) (nodup : (chain ++ [outer]).Nodup) :
    Linked (Function.update (Function.update next outer none) made (some outer))
      (chain ++ [outer]) := by
  induction chain with
  | nil => contradiction
  | cons first chain ih =>
      rw [List.cons_append] at nodup
      obtain ⟨fresh, nodup⟩ := List.nodup_cons.1 nodup
      rw [List.mem_append, not_or, List.mem_singleton] at fresh
      cases chain with
      | nil =>
          have same : first = made := by simpa using last
          subst same
          refine ⟨Function.update_self _ _ _, ?_⟩
          show Function.update (Function.update next outer none) first (some outer) outer = none
          rw [Function.update_of_ne (Ne.symm fresh.2), Function.update_self]
      | cons second chain =>
          rw [List.getLast?_cons_cons] at last
          have ne : first ≠ made := fun same => fresh.1 (same ▸ List.mem_of_getLast? last)
          refine ⟨?_, ih linked.2 last nodup⟩
          rw [Function.update_of_ne ne, Function.update_of_ne fresh.2]
          exact linked.1

end Act

/-! ## Links -/

namespace Builder

/-- The links are those that the events have, the newest wrapper first. -/
structure Linking (builder : Builder) : Prop where
  recorded : ∀ wrapped wrapper : Nat, (wrapped, wrapper) ∈ builder.links ↔
    builder.events[wrapped]?.bind Event.wrapper? = some wrapper
  sorted : builder.links.Pairwise fun newer older => older.2 < newer.2
  forward : ∀ wrapped wrapper : Nat, (wrapped, wrapper) ∈ builder.links → wrapped < wrapper

/-- The event without a link to what is at some index or later. -/
def unlinked (length : Nat) (event : Event) : Event :=
  if event.wrapper?.any (length ≤ ·) then event.withWrapper none else event

theorem Linking.mem_links_truncate {builder : Builder} (linking : builder.Linking) (length : Nat)
    (link : Nat × Nat) :
    link ∈ (builder.truncate length).links ↔ link ∈ builder.links ∧ link.2 < length := by
  rw [links_truncate]
  have sorted := linking.sorted
  generalize builder.links = links at sorted
  induction links with
  | nil => simp
  | cons newest links ih =>
      obtain ⟨older, sorted⟩ := List.pairwise_cons.1 sorted
      rw [List.dropWhile_cons]
      split
      · rename_i gone
        simp only [decide_eq_true_eq] at gone
        refine (ih sorted).trans ?_
        rw [List.mem_cons]
        constructor
        · exact fun ⟨mem, lt⟩ => ⟨.inr mem, lt⟩
        · rintro ⟨rfl | mem, lt⟩
          · omega
          · exact ⟨mem, lt⟩
      · rename_i kept
        simp only [decide_eq_true_eq] at kept
        refine ⟨fun mem => ⟨mem, ?_⟩, fun ⟨mem, _⟩ => mem⟩
        rcases List.mem_cons.1 mem with rfl | mem
        · omega
        · have := older link mem
          omega

theorem Linking.toList_truncate {builder : Builder} (linking : builder.Linking) (length : Nat) :
    (builder.truncate length).events.toList =
      (builder.events.toList.take length).map (unlinked length) := by
  refine List.ext_getElem? fun i => ?_
  rw [Array.getElem?_toList, getElem?_truncate, List.getElem?_map, List.getElem?_take,
    Array.getElem?_toList]
  split
  · rename_i inside
    have cut : (builder.links.takeWhile (length ≤ ·.2)).any (·.1 == i) = true ↔
        (builder.events[i]?.bind Event.wrapper?).any (length ≤ ·) = true := by
      rw [List.any_eq_true]
      constructor
      · rintro ⟨⟨wrapped, wrapper⟩, mem, same⟩
        have le := List.mem_takeWhile_imp mem
        have is := (linking.recorded wrapped wrapper).1 ((List.takeWhile_sublist _).subset mem)
        rw [show wrapped = i by simpa using same] at is
        simpa [is] using le
      · intro some
        obtain ⟨wrapper, is, le⟩ : ∃ wrapper, builder.events[i]?.bind Event.wrapper? =
            Option.some wrapper ∧ length ≤ wrapper := by
          cases is : builder.events[i]?.bind Event.wrapper? with
          | none => simp [is] at some
          | some wrapper => exact ⟨wrapper, rfl, by simpa [is] using some⟩
        have mem := (linking.recorded i wrapper).2 is
        have gone : (i, wrapper) ∉ (builder.truncate length).links := by
          rw [linking.mem_links_truncate]
          exact fun ⟨_, lt⟩ => absurd lt (Nat.not_lt.2 le)
        rw [links_truncate] at gone
        rw [← List.takeWhile_append_dropWhile (p := (length ≤ ·.2)) (l := builder.links)] at mem
        exact ⟨(i, wrapper), (List.mem_append.1 mem).resolve_right gone, by simp⟩
    cases found : builder.events[i]? with
    | none => simp
    | some event =>
        rw [found, Option.bind_some] at cut
        simp only [Option.map_some, unlinked]
        by_cases wrapped : event.wrapper?.any (length ≤ ·) = true
        · rw [if_pos (cut.2 wrapped), if_pos wrapped]
        · rw [if_neg (mt cut.1 wrapped), if_neg wrapped]
  · rfl

theorem Linking.truncate {builder : Builder} (linking : builder.Linking) (length : Nat) :
    (builder.truncate length).Linking where
  recorded := by
    intro wrapped wrapper
    rw [linking.mem_links_truncate, ← Array.getElem?_toList, linking.toList_truncate,
      List.getElem?_map, List.getElem?_take, Array.getElem?_toList]
    constructor
    · rintro ⟨mem, lt⟩
      have before := linking.forward wrapped wrapper mem
      have is := (linking.recorded wrapped wrapper).1 mem
      rw [if_pos (Nat.lt_trans before lt)]
      obtain ⟨event, found, link⟩ := Option.bind_eq_some_iff.1 is
      rw [found]
      change (unlinked length event).wrapper? = _
      rw [unlinked, if_neg (by simpa [link] using lt), link]
    · intro is
      split at is
      · obtain ⟨_, whole, link⟩ := Option.bind_eq_some_iff.1 is
        obtain ⟨event, found, rfl⟩ := Option.map_eq_some_iff.1 whole
        unfold unlinked at link
        split at link
        · simp at link
        · rename_i kept
          have lt : wrapper < length := by simpa [link] using kept
          exact ⟨(linking.recorded wrapped wrapper).2 (by rw [found]; exact link), lt⟩
      · contradiction
  sorted := by
    rw [links_truncate]
    exact linking.sorted.sublist (List.dropWhile_sublist _)
  forward := fun wrapped wrapper mem =>
    linking.forward wrapped wrapper ((linking.mem_links_truncate length _).1 mem).1

/-- An event without a wrapper can be added. -/
theorem Linking.push {builder : Builder} (linking : builder.Linking) {event : Event}
    (plain : event.wrapper? = none) : (builder.push event).Linking where
  recorded := by
    intro wrapped wrapper
    refine (linking.recorded wrapped wrapper).trans ?_
    simp only [Builder.push, Array.getElem?_push]
    split
    · rename_i last
      rw [last]
      simp [plain]
    · rfl
  sorted := linking.sorted
  forward := linking.forward

/-- A wrapper is put around what had none. -/
theorem Linking.wrap {builder : Builder} (linking : builder.Linking)
    (known : ∀ link ∈ builder.links, link.2 < builder.events.size) {wrapped : Nat}
    {completion : Completion} (found : builder.events[wrapped]? = some (.start completion none)) :
    Linking { builder with
      events := (builder.events.push (.start .unresolved none)).modify wrapped
        (Event.withWrapper (some builder.events.size))
      links := (wrapped, builder.events.size) :: builder.links } where
  recorded := by
    have inside : wrapped < builder.events.size := (Array.getElem?_eq_some_iff.1 found).1
    intro i wrapper
    rw [List.mem_cons, linking.recorded, Array.getElem?_modify, Array.getElem?_push]
    by_cases here : wrapped = i
    · subst here
      rw [if_pos rfl, if_neg (Nat.ne_of_lt inside), found]
      simp [Event.wrapper?, Event.withWrapper, eq_comm]
    · rw [if_neg here]
      have other : ¬ (i, wrapper) = (wrapped, builder.events.size) := fun same =>
        here (Prod.mk.inj same).1.symm
      rw [or_iff_right other]
      split
      · rename_i last
        rw [last]
        simp [Event.wrapper?]
      · rfl
  sorted := List.pairwise_cons.2 ⟨known, linking.sorted⟩
  forward := by
    intro i wrapper mem
    rcases List.mem_cons.1 mem with same | mem
    · cases same
      exact (Array.getElem?_eq_some_iff.1 found).1
    · exact linking.forward i wrapper mem

/-- What a wrapper does to a builder, if it is known what is outermost so far. -/
theorem precede_spec (builder : Builder) {completed : Completed} {wrapped : Nat}
    (found : outermost (builder.events.push (.start .unresolved none))
      (builder.events.push (.start .unresolved none)).size completed.start = wrapped) :
    builder.precede completed =
      (⟨builder.events.size, completed.start, completed.cursor⟩, { builder with
        events := (builder.events.push (.start .unresolved none)).modify wrapped
          (Event.withWrapper (some builder.events.size))
        links := (wrapped, builder.events.size) :: builder.links }) := by
  subst found
  rfl

/-- Events may be changed if they keep their wrappers. -/
theorem Linking.change {builder : Builder} (linking : builder.Linking) {events : Array Event}
    (same : ∀ i : Nat, events[i]?.bind Event.wrapper? =
      builder.events[i]?.bind Event.wrapper?) : Linking { builder with events } where
  recorded := fun wrapped wrapper => by
    rw [linking.recorded wrapped wrapper]
    exact iff_of_eq (congrArg (· = some wrapper) (same wrapped).symm)
  sorted := linking.sorted
  forward := linking.forward

end Builder

/-! ## Events and acts -/

theorem Act.event_congr {completion completion' : Nat → Completion} {next next' : Nat → Option Nat}
    {place place' : Nat → Nat} {act : Act}
    (same : ∀ marker, act.owner? = some marker → completion' marker = completion marker ∧
      (next' marker).map place' = (next marker).map place) :
    act.event completion' next' place' = act.event completion next place := by
  cases act with
  | opening marker _ | wrapper marker =>
      obtain ⟨resolved, wrapped⟩ := same marker rfl
      simp only [event, resolved, wrapped]
  | finish | token | missing => rfl

theorem Act.event_restrict (completion : Nat → Completion) (next : Nat → Option Nat)
    (place : Nat → Nat) (root : Nat) (act : Act) :
    (act.restrict root).event completion next place = act.event completion next place := by
  cases act <;> rfl

theorem Act.event_extend (completion : Nat → Completion) (next : Nat → Option Nat)
    (place : Nat → Nat) (made outer : Nat) (act : Act) :
    (act.extend made outer).event completion next place = act.event completion next place := by
  cases act with
  | opening first wrappers =>
      simp only [extend]
      split <;> rfl
  | wrapper | finish | token | missing => rfl

/-- The events of the builder say what the acts of the plan say, where some markers are wrapped. -/
structure Describes (plan : Plan) (next : Nat → Option Nat) (builder : Builder) : Prop where
  linking : builder.Linking
  events : builder.events.toList =
    plan.acts.map (Act.event plan.completion next (Act.place plan.acts))
  linked : ∀ act ∈ plan.acts, Act.Linked next act.chain

namespace Describes

variable {plan : Plan} {next : Nat → Option Nat} {builder : Builder}
variable (describes : Describes plan next builder) (ordered : Act.Ordered plan.acts)

include describes in
theorem size : builder.events.size = plan.acts.length := by
  rw [← Array.length_toList, describes.events, List.length_map]

include describes in
theorem getElem? (i : Nat) : builder.events[i]? =
    plan.acts[i]?.map (Act.event plan.completion next (Act.place plan.acts)) := by
  rw [← Array.getElem?_toList, describes.events, List.getElem?_map]

include describes ordered

/-- A wrapper was made later than what it wraps. -/
theorem next_mem {marker outer : Nat} (mem : marker ∈ Act.owners plan.acts)
    (wrapped : next marker = some outer) : outer ∈ Act.owners plan.acts ∧ marker < outer := by
  obtain ⟨act, among, begun⟩ := List.mem_flatMap.1 (ordered.begun marker mem)
  obtain ⟨inside, lt⟩ := Act.next_of_linked (describes.linked act among) begun wrapped
    (ordered.chains act among)
  exact ⟨ordered.owned outer (Act.mem_opened_of_mem among inside), lt⟩

/-- The event at the place of a marker. -/
theorem event_at {marker : Nat} (mem : marker ∈ Act.owners plan.acts) :
    builder.events[Act.place plan.acts marker]? =
      some (.start (plan.completion marker) ((next marker).map (Act.place plan.acts))) := by
  obtain ⟨act, found, owner⟩ := ordered.getElem?_place mem
  rw [describes.getElem?, found]
  cases act with
  | opening first _ | wrapper first =>
      cases owner
      rfl
  | finish | token | missing => contradiction

/-- An act that makes no marker is added, and the event that says the same. -/
theorem push {act : Act} (plain : act.owner? = none) :
    Describes (plan.push act) next (builder.push (act.event plan.completion next
      (Act.place plan.acts))) where
  linking := describes.linking.push (by cases act <;> first | rfl | contradiction)
  events := by
    show (builder.events.push _).toList = (plan.acts ++ [act]).map _
    rw [Array.toList_push, describes.events, List.map_append]
    congr 1
    · refine List.map_congr_left fun act' mem => Act.event_congr fun marker owner => ⟨rfl, ?_⟩
      have owned := Act.mem_owners_of_mem mem owner
      cases wrapped : next marker with
      | none => rfl
      | some outer =>
          have outer' := (describes.next_mem ordered owned wrapped).1
          exact congrArg some (Act.place_append outer' _).symm
    · refine congrArg (· :: []) (Act.event_congr fun marker owner => ?_)
      rw [plain] at owner
      contradiction
  linked := by
    refine List.forall_mem_append.2 ⟨describes.linked, List.forall_mem_singleton.2 ?_⟩
    rw [Act.chain_of_plain plain]
    trivial

/-- A marker is made, and the event where it begins. -/
theorem mark (bounded : ∀ marker ∈ Act.owners plan.acts, marker < plan.count)
    (unresolved : plan.completion plan.count = .unresolved) :
    Describes plan.mark (Function.update next plan.count none) builder.mark.2 where
  linking := describes.linking.push rfl
  events := by
    show (builder.events.push _).toList = (plan.acts ++ [_]).map _
    rw [Array.toList_push, describes.events, List.map_append]
    congr 1
    · refine List.map_congr_left fun act' mem => Act.event_congr fun marker owner => ⟨rfl, ?_⟩
      have owned := Act.mem_owners_of_mem mem owner
      rw [Function.update_of_ne (Nat.ne_of_lt (bounded marker owned))]
      cases wrapped : next marker with
      | none => rfl
      | some outer =>
          have outer' := (describes.next_mem ordered owned wrapped).1
          exact congrArg some (Act.place_append outer' _).symm
    · show [_] = [Event.start (plan.completion plan.count) _]
      rw [unresolved, Function.update_self]
      rfl
  linked := by
    refine List.forall_mem_append.2 ⟨fun act mem => ?_, List.forall_mem_singleton.2 ?_⟩
    · refine Act.linked_congr (fun marker begun => ?_) (describes.linked act mem)
      have owned := ordered.owned marker (Act.mem_opened_of_mem mem begun)
      exact Function.update_of_ne (Nat.ne_of_lt (bounded marker owned)) _ _
    · exact Function.update_self _ _ _

/-- What a marker has turned out to be is written where it begins. -/
theorem resolve {marker : Nat} (mem : marker ∈ Act.owners plan.acts) {completion : Completion}
    {events : Array Event} (here : events[Act.place plan.acts marker]? =
      some (.start completion ((next marker).map (Act.place plan.acts))))
    (there : ∀ i, i ≠ Act.place plan.acts marker → events[i]? = builder.events[i]?) :
    Describes (plan.resolve marker completion) next { builder with events } where
  linking := by
    refine describes.linking.change fun i => ?_
    by_cases same : i = Act.place plan.acts marker
    · rw [same, here, describes.event_at ordered mem]
      rfl
    · rw [there i same]
  events := by
    refine List.ext_getElem? fun i => ?_
    rw [Array.getElem?_toList, List.getElem?_map]
    show events[i]? = plan.acts[i]?.map _
    by_cases same : i = Act.place plan.acts marker
    · obtain ⟨act, found, owner⟩ := ordered.getElem?_place mem
      rw [same, here, found]
      have own : act.event (Function.update plan.completion marker completion) next
          (Act.place plan.acts) =
          .start completion ((next marker).map (Act.place plan.acts)) := by
        cases act with
        | opening first _ | wrapper first =>
            cases owner
            simp [Act.event]
        | finish | token | missing => contradiction
      exact congrArg some own.symm
    · rw [there i same, describes.getElem?]
      cases found : plan.acts[i]? with
      | none => rfl
      | some act =>
          refine congrArg some (Act.event_congr fun other owner => ⟨?_, rfl⟩).symm
          refine Function.update_of_ne ?_ _ _
          rintro rfl
          exact same (ordered.eq_place found owner)
  linked := describes.linked

/-- The events are cut off where a marker was made. -/
theorem cut {root : Nat} (mem : root ∈ Act.owners plan.acts) :
    Describes (plan.cut root) (fun marker => (next marker).filter (· < root))
      (builder.truncate (Act.place plan.acts root)) where
  linking := describes.linking.truncate _
  events := by
    obtain ⟨before, act, after, parts, owner, below, above, taken⟩ := ordered.split mem
    have length : Act.place plan.acts root = before.length := by rw [Act.place, taken]
    have cut : Act.cut root plan.acts = before.map (Act.restrict root) := by
      rw [Act.cut, taken]
    have first : plan.acts.take before.length = before := by rw [parts]; simp
    rw [describes.linking.toList_truncate, describes.events, ← List.map_take, length, first,
      ← length]
    show _ = (Act.cut root plan.acts).map (Act.event plan.completion _
      (Act.place (Act.cut root plan.acts)))
    rw [cut, List.map_map, List.map_map, ← cut]
    refine List.map_congr_left fun act mem' => ?_
    show Builder.unlinked _ (act.event _ _ _) = (act.restrict root).event _ _ _
    rw [Act.event_restrict]
    have single (marker : Nat) (owner : act.owner? = some marker) :
        Builder.unlinked (Act.place plan.acts root) (.start (plan.completion marker)
            ((next marker).map (Act.place plan.acts))) =
          .start (plan.completion marker) (((next marker).filter (· < root)).map
            (Act.place (Act.cut root plan.acts))) := by
      have owned : marker ∈ Act.owners plan.acts := by
        rw [parts, Act.owners_append]
        exact List.mem_append_left _ (Act.mem_owners_of_mem mem' owner)
      cases wrapped : next marker with
      | none => rfl
      | some outer =>
          obtain ⟨owned', -⟩ := describes.next_mem ordered owned wrapped
          by_cases earlier : outer < root
          · have lt := ordered.place_lt_place owned' mem earlier
            have kept : (some outer).filter (· < root) = some outer := by simp [earlier]
            rw [kept]
            simp [Builder.unlinked, Event.wrapper?, Nat.not_le.2 lt,
              ordered.place_cut owned' mem earlier]
          · have le : Act.place plan.acts root ≤ Act.place plan.acts outer := by
              rcases Nat.eq_or_lt_of_le (Nat.not_lt.1 earlier) with same | lt
              · rw [same]
              · exact Nat.le_of_lt (ordered.place_lt_place mem owned' lt)
            have gone : (some outer).filter (· < root) = none := by simpa using earlier
            rw [gone]
            simp [Builder.unlinked, Event.wrapper?, le, Event.withWrapper]
    cases act with
    | opening marker _ | wrapper marker => exact single marker rfl
    | finish | token | missing => rfl
  linked := by
    intro act mem'
    obtain ⟨before, last, after, parts, owner, below, above, cut⟩ := ordered.cut_split mem
    change act ∈ Act.cut root plan.acts at mem'
    rw [cut] at mem'
    obtain ⟨act, taken, rfl⟩ := List.mem_map.1 mem'
    have among : act ∈ plan.acts := by
      rw [parts]
      exact List.mem_append_left _ taken
    have linked : Act.Linked (fun marker => (next marker).filter (· < root))
        (act.chain.filter (· < root)) :=
      Act.linked_filter (describes.linked act among) (ordered.chains act among)
    cases act with
    | opening marker wrappers =>
        have lt := below marker (List.mem_filterMap.2 ⟨.opening marker wrappers, taken, rfl⟩)
        have chain : ((Act.opening marker wrappers).restrict root).chain =
            (marker :: wrappers).filter (· < root) := by
          rw [List.filter_cons_of_pos (by simpa using lt)]
          rfl
        rw [chain]
        exact linked
    | wrapper | finish | token | missing => trivial

/-- Links lead to what has been described already. -/
theorem link_lt {link : Nat × Nat} (mem : link ∈ builder.links) : link.2 < builder.events.size := by
  obtain ⟨event, whole, wrapped⟩ :=
    Option.bind_eq_some_iff.1 ((describes.linking.recorded link.1 link.2).1 mem)
  rw [describes.getElem?] at whole
  obtain ⟨act, found, rfl⟩ := Option.map_eq_some_iff.1 whole
  have single (marker : Nat) (owner : act.owner? = some marker)
      (is : (next marker).map (Act.place plan.acts) = some link.2) :
      link.2 < builder.events.size := by
    obtain ⟨outer, wrapped, same⟩ := Option.map_eq_some_iff.1 is
    have owned := Act.mem_owners_of_mem (List.mem_of_getElem? found) owner
    rw [← same, describes.size]
    exact Act.place_lt_length (describes.next_mem ordered owned wrapped).1
  cases act with
  | opening marker _ | wrapper marker => exact single marker rfl wrapped
  | finish | token | missing => contradiction

/-- Following the wrappers of a marker leads to the last in its chain. -/
theorem outermost {events : Array Event}
    (same : ∀ i < builder.events.size, events[i]? = builder.events[i]?) {chain : List Nat}
    (linked : Act.Linked next chain) (owned : ∀ marker ∈ chain, marker ∈ Act.owners plan.acts)
    {first last : Nat} (starts : chain.head? = some first) (ends : chain.getLast? = some last)
    {fuel : Nat} (enough : chain.length ≤ fuel) :
    Builder.outermost events fuel (Act.place plan.acts first) = Act.place plan.acts last := by
  induction chain generalizing first fuel with
  | nil => contradiction
  | cons marker chain ih =>
      cases starts
      obtain ⟨here, owned⟩ := List.forall_mem_cons.1 owned
      obtain ⟨fuel, rfl⟩ : ∃ more, fuel = more + 1 :=
        ⟨fuel - 1, by rw [List.length_cons] at enough; omega⟩
      have inside : Act.place plan.acts marker < builder.events.size := by
        rw [describes.size]
        exact Act.place_lt_length here
      have found : events[Act.place plan.acts marker]?.bind Event.wrapper? =
          (next marker).map (Act.place plan.acts) := by
        rw [same _ inside, describes.event_at ordered here]
        rfl
      cases chain with
      | nil =>
          cases ends
          rw [Builder.outermost, found, show next marker = none from linked]
          rfl
      | cons outer chain =>
          rw [List.getLast?_cons_cons] at ends
          rw [Builder.outermost, found, linked.1]
          exact ih linked.2 owned rfl ends (by simpa using enough)

/-- A wrapper is made around what is outermost so far, and a link to it. -/
theorem precede (bounded : ∀ marker ∈ Act.owners plan.acts, marker < plan.count)
    (unresolved : plan.completion plan.count = .unresolved) {first made : Nat}
    {wrappers : List Nat} (mem : .opening first wrappers ∈ plan.acts)
    (last : (first :: wrappers).getLast? = some made) (cursor : Nat) :
    Describes (plan.precede made)
      (Function.update (Function.update next plan.count none) made (some plan.count))
      (builder.precede ⟨Act.place plan.acts first, cursor⟩).2 := by
  have linked : Act.Linked next (first :: wrappers) := describes.linked _ mem
  have chain (marker : Nat) (among : marker ∈ first :: wrappers) :
      marker ∈ Act.owners plan.acts :=
    ordered.owned marker (Act.mem_opened_of_mem mem among)
  have owned : made ∈ Act.owners plan.acts := chain made (List.mem_of_getLast? last)
  have outermost : next made = none := Act.next_last linked last
  have enough : (first :: wrappers).length ≤ builder.events.size + 1 := by
    rw [describes.size]
    exact Nat.le_succ_of_le (ordered.length_chain_le mem)
  have found : Builder.outermost (builder.events.push (.start .unresolved none))
      (builder.events.push (.start .unresolved none)).size (Act.place plan.acts first) =
        Act.place plan.acts made := by
    refine describes.outermost ordered (fun i inside => ?_) linked chain rfl last ?_
    · rw [Array.getElem?_push, if_neg (Nat.ne_of_lt inside)]
    · rw [Array.size_push]
      exact enough
  have here := describes.event_at ordered owned
  rw [outermost, Option.map_none] at here
  have new : plan.count ∉ Act.owners plan.acts := fun mem =>
    Nat.lt_irrefl _ (bounded _ mem)
  have ne : plan.count ≠ made := fun same => new (same ▸ owned)
  have place (marker : Nat) (mem : marker ∈ Act.owners plan.acts) :
      Act.place (plan.precede made).acts marker = Act.place plan.acts marker := by
    show Act.place (plan.acts.map _ ++ [_]) marker = _
    rw [Act.place_append (by rwa [Act.owners_map_extend]), Act.place_extend]
  have place' : Act.place (plan.precede made).acts plan.count = builder.events.size := by
    show Act.place (plan.acts.map _ ++ [_]) plan.count = _
    rw [Act.place_last (by rwa [Act.owners_map_extend]) rfl, List.length_map, describes.size]
  have inside : Act.place plan.acts made < builder.events.size := by
    rw [describes.size]
    exact Act.place_lt_length owned
  rw [builder.precede_spec found]
  refine ⟨?_, ?_, ?_⟩
  · exact describes.linking.wrap (fun _ => describes.link_lt ordered) here
  · refine List.ext_getElem? fun i => ?_
    rw [Array.getElem?_toList, Array.getElem?_modify, Array.getElem?_push, List.getElem?_map]
    show _ = Option.map _ (plan.acts.map _ ++ [_])[i]?
    rw [Follows.getElem?_concat, List.length_map, List.getElem?_map, ← describes.size]
    rcases Nat.lt_trichotomy i builder.events.size with lt | rfl | gt
    · rw [if_neg (Nat.ne_of_lt lt), if_neg (Nat.ne_of_lt lt), describes.getElem?]
      by_cases same : Act.place plan.acts made = i
      · obtain ⟨act, found, owner⟩ := ordered.getElem?_place owned
        rw [if_pos same, ← same, found, Option.map_some, Option.map_some, Option.map_some,
          Option.map_some, Act.event_extend]
        cases act with
        | opening | wrapper =>
            cases owner
            rw [← place']
            simp [Act.event, Event.withWrapper, Plan.precede]
        | finish | token | missing => contradiction
      · rw [if_neg same]
        cases at_i : plan.acts[i]? with
        | none => rfl
        | some act =>
            refine congrArg some ?_
            rw [Act.event_extend]
            refine (Act.event_congr fun marker owner => ⟨rfl, ?_⟩).symm
            have owned' := Act.mem_owners_of_mem (List.mem_of_getElem? at_i) owner
            have other : marker ≠ made := by
              rintro rfl
              exact same (ordered.eq_place at_i owner).symm
            rw [Function.update_of_ne other,
              Function.update_of_ne (Nat.ne_of_lt (bounded marker owned'))]
            cases wrapped : next marker with
            | none => rfl
            | some outer =>
                exact congrArg some (place outer (describes.next_mem ordered owned' wrapped).1)
    · rw [if_pos rfl, if_pos rfl, if_neg (Nat.ne_of_lt inside)]
      simp [Act.event, Plan.precede, unresolved, Function.update_of_ne ne]
    · rw [if_neg (Nat.ne_of_gt gt), if_neg (Nat.ne_of_gt gt), if_neg (by omega),
        Array.getElem?_eq_none (Nat.le_of_lt gt),
        List.getElem?_eq_none (by rw [← describes.size]; exact Nat.le_of_lt gt)]
      rfl
  · intro act mem'
    rcases List.mem_append.1 mem' with mem' | mem'
    · obtain ⟨act, among, rfl⟩ := List.mem_map.1 mem'
      have linked := describes.linked act among
      have chain (marker : Nat) (begun : marker ∈ act.chain) : marker ∈ Act.owners plan.acts :=
        ordered.owned marker (Act.mem_opened_of_mem among begun)
      have kept (notLast : act.chain.getLast? ≠ some made) : Act.Linked (Function.update
          (Function.update next plan.count none) made (some plan.count)) act.chain := by
        refine Act.linked_congr (fun marker begun => ?_) linked
        have other : marker ≠ made := by
          rintro rfl
          exact notLast (Act.last_of_linked linked begun outermost)
        rw [Function.update_of_ne other,
          Function.update_of_ne (Nat.ne_of_lt (bounded marker (chain marker begun)))]
      cases act with
      | opening first' wrappers' =>
          simp only [Act.extend]
          split
          · rename_i last'
            refine Act.linked_concat linked last' (List.nodup_append.2 ⟨?_,
              List.nodup_singleton _, ?_⟩)
            · exact (ordered.chains _ among).imp fun lt => Nat.ne_of_lt lt
            · intro marker begun other is same
              cases List.mem_singleton.1 is
              exact new (same ▸ chain marker begun)
          · exact kept ‹_›
      | wrapper | finish | token | missing => trivial
    · cases List.mem_singleton.1 mem'
      trivial

end Describes

end StarlarkSyntax
