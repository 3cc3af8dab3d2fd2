import StarlarkSyntax.Proofs.Builder.Describe
import StarlarkSyntax.Proofs.Builder.Leaves
/-!
# The steps that a plan stands for

Following the links of the events makes a step of each act of the plan (`steps_eq`). A chain of
wrappers is taken out of the events when its first marker is reached, so what is left at an index
depends on whether a wrapper there has begun before (`Act.left`).
-/

set_option autoImplicit false

namespace StarlarkSyntax

namespace Act

/-- The step that an act stands for. -/
def resolved (completion : Nat → Completion) : Act → Step
  | opening marker wrappers => .opening ((marker :: wrappers).map completion).reverse
  | wrapper _ => .opening [.abandoned]
  | finish => .finish
  | token => .token
  | missing message => .error message

/-- The event that is left of an act when some markers have begun. -/
def left (completion : Nat → Completion) (next : Nat → Option Nat) (place : Nat → Nat)
    (begun : List Nat) : Act → Event
  | wrapper marker =>
    if marker ∈ begun then .tombstone
    else (wrapper marker).event completion next place
  | act => act.event completion next place

end Act

namespace Step

/-- Takes the events at some indices out. -/
def bury (places : List Nat) (events : Array Event) : Array Event :=
  places.foldl (fun events index => events.setIfInBounds index .tombstone) events

@[simp] theorem size_bury (places : List Nat) (events : Array Event) :
    (bury places events).size = events.size := by
  induction places generalizing events with
  | nil => rfl
  | cons index places ih => exact (ih _).trans Array.size_setIfInBounds

theorem getElem?_bury_of_mem {places : List Nat} {events : Array Event} {index : Nat}
    (inside : index < events.size) (mem : index ∈ places) :
    (bury places events)[index]? = some .tombstone := by
  have buried (places : List Nat) (events : Array Event)
      (found : events[index]? = some .tombstone) :
      (bury places events)[index]? = some .tombstone := by
    induction places generalizing events with
    | nil => exact found
    | cons first places ih =>
        refine ih _ ?_
        by_cases same : first = index
        · subst same
          exact Array.getElem?_setIfInBounds_self_of_lt (Array.getElem?_eq_some_iff.1 found).1
        · rw [Array.getElem?_setIfInBounds_ne same, found]
  induction places generalizing events with
  | nil => contradiction
  | cons first places ih =>
      rcases List.mem_cons.1 mem with rfl | mem
      · exact buried places _ (Array.getElem?_setIfInBounds_self_of_lt inside)
      · exact ih (by simpa using inside) mem

theorem getElem?_bury_of_not_mem {places : List Nat} {index : Nat} (other : index ∉ places)
    (events : Array Event) : (bury places events)[index]? = events[index]? := by
  induction places generalizing events with
  | nil => rfl
  | cons first places ih =>
      rw [List.mem_cons, not_or] at other
      exact (ih other.2 _).trans (Array.getElem?_setIfInBounds_ne (Ne.symm other.1))

/-- Following a chain of wrappers takes them out, one after another. -/
theorem unchain_eq (completion : Nat → Completion) {next : Nat → Option Nat} {place : Nat → Nat}
    {marker : Nat} {wrappers : List Nat} (linked : Act.Linked next (marker :: wrappers))
    {events : Array Event} (found : ∀ wrapper ∈ wrappers,
      events[place wrapper]? = some (.start (completion wrapper) ((next wrapper).map place)))
    (distinct : (wrappers.map place).Nodup) {fuel : Nat} (enough : wrappers.length ≤ fuel)
    (chain : List Completion) : unchain fuel ((next marker).map place) events chain =
      ((wrappers.map completion).reverse ++ chain, bury (wrappers.map place) events) := by
  induction wrappers generalizing marker events fuel chain with
  | nil =>
      rw [show next marker = none from linked]
      cases fuel <;> rfl
  | cons wrapper wrappers ih =>
      obtain ⟨here, found⟩ := List.forall_mem_cons.1 found
      obtain ⟨apart, distinct⟩ := List.nodup_cons.1 distinct
      obtain ⟨fuel, rfl⟩ : ∃ more, fuel = more + 1 :=
        ⟨fuel - 1, by rw [List.length_cons] at enough; omega⟩
      rw [linked.1, Option.map_some, unchain, here]
      dsimp only
      rw [ih linked.2 (fun other mem => ?_) distinct (by simpa using enough)]
      · simp [bury]
      · rw [Array.getElem?_setIfInBounds_ne, found other mem]
        intro same
        exact apart (same ▸ List.mem_map_of_mem mem)

end Step

namespace Act

section Order

variable {acts : List Act} (ordered : Ordered acts)
include ordered

/-- What is wrapped around something was made by an act of its own. -/
theorem Ordered.wrapper_at {first wrapper : Nat} {wrappers : List Nat}
    (mem : .opening first wrappers ∈ acts) (inside : wrapper ∈ wrappers) :
    acts[place acts wrapper]? = some (.wrapper wrapper) := by
  have begun : wrapper ∈ (Act.opening first wrappers).chain := List.mem_cons_of_mem _ inside
  have owned := ordered.owned wrapper (mem_opened_of_mem mem begun)
  obtain ⟨act, found, owner⟩ := ordered.getElem?_place owned
  cases act with
  | wrapper marker =>
      cases owner
      exact found
  | opening marker wrappers' =>
      cases owner
      -- Otherwise it would have begun twice.
      have lt : first < wrapper := (List.pairwise_cons.1 (ordered.chains _ mem)).1 wrapper inside
      obtain ⟨before, after, parts⟩ := List.append_of_mem mem
      have nodup := ordered.nodup
      rw [parts, opened_append, opened_cons] at nodup
      obtain ⟨-, nodup, apart⟩ := List.nodup_append.1 nodup
      obtain ⟨-, -, apart'⟩ := List.nodup_append.1 nodup
      have own : wrapper ∈ (Act.opening wrapper wrappers').chain := List.mem_cons_self
      have mem' := List.mem_of_getElem? found
      rw [parts] at mem'
      rcases List.mem_append.1 mem' with early | late
      · exact absurd rfl (apart wrapper (mem_opened_of_mem early own) wrapper
          (List.mem_append_left _ begun))
      · rcases List.mem_cons.1 late with same | late
        · cases same
          exact absurd lt (Nat.lt_irrefl _)
        · exact absurd rfl (apart' wrapper begun wrapper (mem_opened_of_mem late own))
  | finish | token | missing => contradiction

/-- A wrapper has begun before the act that made it. -/
theorem Ordered.begun_before {before after : List Act} {marker : Nat}
    (parts : acts = before ++ .wrapper marker :: after) : marker ∈ opened before := by
  have mem : Act.wrapper marker ∈ acts := by
    rw [parts]
    exact List.mem_append_right _ List.mem_cons_self
  have owned : marker ∈ owners acts := List.mem_filterMap.2 ⟨_, mem, rfl⟩
  have here : place acts marker = before.length := by
    refine (ordered.eq_place ?_ (rfl : (Act.wrapper marker).owner? = some marker)).symm
    rw [parts]
    simp
  obtain ⟨act, mem', begun⟩ := List.mem_flatMap.1 (ordered.begun marker owned)
  obtain ⟨k, found⟩ := List.getElem?_of_mem mem'
  cases act with
  | opening first wrappers =>
      have at_k := ordered.eq_place found rfl
      have lt : k < before.length := by
        rcases List.mem_cons.1 begun with same | inside
        · rw [same, ← at_k] at here
          rw [here, parts] at found
          simp at found
        · have lt := (List.pairwise_cons.1 (ordered.chains _ mem')).1 marker inside
          have owned' : first ∈ owners acts := List.mem_filterMap.2 ⟨_, mem', rfl⟩
          have := ordered.place_lt_place owned' owned lt
          omega
      rw [parts, List.getElem?_append_left lt] at found
      exact mem_opened_of_mem (List.mem_of_getElem? found) begun
  | wrapper | finish | token | missing => contradiction

/-- What wraps something is placed after it, and once only. -/
theorem Ordered.places_of_wrappers {first : Nat} {wrappers : List Nat}
    (mem : .opening first wrappers ∈ acts) :
    (∀ wrapper ∈ wrappers, place acts first < place acts wrapper) ∧
      (wrappers.map (place acts)).Nodup := by
  obtain ⟨below, order⟩ := List.pairwise_cons.1 (ordered.chains _ mem)
  have owned (marker : Nat) (begun : marker ∈ first :: wrappers) : marker ∈ owners acts :=
    ordered.owned marker (mem_opened_of_mem mem begun)
  constructor
  · intro wrapper inside
    exact ordered.place_lt_place (owned first List.mem_cons_self)
      (owned wrapper (List.mem_cons_of_mem _ inside)) (below wrapper inside)
  · refine List.pairwise_map.2 (order.imp_of_mem fun inside inside' lt => Nat.ne_of_lt ?_)
    exact ordered.place_lt_place (owned _ (List.mem_cons_of_mem _ inside))
      (owned _ (List.mem_cons_of_mem _ inside')) lt

end Order

end Act

namespace Step

/-- The steps from some act on, when the wrappers that have begun before are taken out. -/
theorem resolveFrom_eq {acts : List Act} {completion : Nat → Completion} {next : Nat → Option Nat}
    (ordered : Act.Ordered acts) (linked : ∀ act ∈ acts, Act.Linked next act.chain)
    {before after : List Act} (parts : acts = before ++ after) {events : Array Event}
    (size : events.size = acts.length) (found : ∀ i act, before.length ≤ i → acts[i]? = some act →
      events[i]? = some (act.left completion next (Act.place acts) (Act.opened before)))
    (steps : Array Step) : (resolveFrom after.length before.length events steps).toList =
      steps.toList ++ after.map (Act.resolved completion) := by
  induction after generalizing before events steps with
  | nil => simp [resolveFrom]
  | cons act after ih =>
      have at_here : acts[before.length]? = some act := by
        rw [parts]
        simp
      have here := found before.length act (Nat.le_refl _) at_here
      have parts' : acts = (before ++ [act]) ++ after := by
        rw [parts, List.append_assoc]
        rfl
      have mem : act ∈ acts := List.mem_of_getElem? at_here
      have inside : before.length < acts.length := (List.getElem?_eq_some_iff.1 at_here).1
      -- It remains to say what is left of the events in each case.
      have rest {step : Step} (is : act.resolved completion = step) {events : Array Event}
          (size : events.size = acts.length)
          (found : ∀ i other, before.length < i → acts[i]? = some other → events[i]? =
            some (other.left completion next (Act.place acts) (Act.opened (before ++ [act])))) :
          (resolveFrom after.length (before.length + 1) events (steps.push step)).toList =
            steps.toList ++ (act :: after).map (Act.resolved completion) := by
        have length : (before ++ [act]).length = before.length + 1 := List.length_append
        have ih := ih parts' size (fun i other le => found i other (by omega)) (steps.push step)
        rw [length] at ih
        rw [ih, Array.toList_push, List.map_cons, is, List.append_assoc]
        rfl
      -- An act with which nothing begins leaves the events after it as they are.
      have plain (none : act.chain = []) (i : Nat) (other : Act) (lt : before.length < i)
          (is : acts[i]? = some other) : events[i]? =
            some (other.left completion next (Act.place acts) (Act.opened (before ++ [act]))) := by
        rw [Act.opened_append, Act.opened_cons, none]
        simpa using found i other (Nat.le_of_lt lt) is
      rw [List.length_cons, resolveFrom, here]
      cases act with
      | opening first wrappers =>
          have place : Act.place acts first = before.length :=
            (ordered.eq_place at_here rfl).symm
          obtain ⟨after', distinct⟩ := ordered.places_of_wrappers mem
          have notBefore (marker : Nat) (begun : marker ∈ first :: wrappers) :
              marker ∉ Act.opened before := by
            have nodup := ordered.nodup
            rw [parts, Act.opened_append, Act.opened_cons] at nodup
            exact fun early => (List.nodup_append.1 nodup).2.2 marker early marker
              (List.mem_append_left _ begun) rfl
          dsimp only [Act.left, Act.event]
          rw [unchain_eq completion (linked _ mem) (fun wrapper among => ?_) distinct ?_]
          · refine rest (by simp [Act.resolved]) (by simp [size]) fun i other lt is => ?_
            by_cases buried : i ∈ wrappers.map (Act.place acts)
            · rw [getElem?_bury_of_mem ?_ buried]
              · obtain ⟨wrapper, among, rfl⟩ := List.mem_map.1 buried
                rw [ordered.wrapper_at mem among] at is
                cases is
                simp [Act.left, Act.chain, among]
              · rw [Array.size_setIfInBounds, size]
                exact (List.getElem?_eq_some_iff.1 is).1
            · rw [getElem?_bury_of_not_mem buried,
                Array.getElem?_setIfInBounds_ne (Nat.ne_of_lt lt),
                found i other (Nat.le_of_lt lt) is]
              cases other with
              | wrapper marker =>
                  have at_i := ordered.eq_place is rfl
                  have ne : marker ≠ first := by
                    rintro rfl
                    omega
                  have notHere : marker ∉ wrappers := fun among =>
                    buried (at_i ▸ List.mem_map_of_mem among)
                  simp [Act.left, Act.chain, ne, notHere]
              | opening | finish | token | missing => rfl
          · rw [Array.size_setIfInBounds, size]
            exact Nat.le_of_succ_le (ordered.length_chain_le mem)
          · rw [Array.getElem?_setIfInBounds_ne]
            · have late := after' wrapper among
              rw [found _ _ (by omega) (ordered.wrapper_at mem among), Act.left,
                if_neg (notBefore wrapper (List.mem_cons_of_mem _ among))]
              rfl
            · have := after' wrapper among
              omega
      | wrapper marker =>
          rw [Act.left, if_pos (ordered.begun_before parts)]
          dsimp only [Event.tombstone]
          rw [unchain_none]
          refine rest rfl (by simp [size]) fun i other lt is => ?_
          rw [Array.getElem?_setIfInBounds_ne (Nat.ne_of_lt lt)]
          exact plain rfl i other lt is
      | finish => exact rest rfl size (plain rfl)
      | token => exact rest rfl size (plain rfl)
      | missing message => exact rest rfl size (plain rfl)

end Step

/-- The steps are what the acts stand for. -/
theorem Describes.resolve_eq {plan : Plan} {next : Nat → Option Nat} {builder : Builder}
    (describes : Describes plan next builder) (ordered : Act.Ordered plan.acts) :
    Step.resolve builder.events = plan.acts.map (Act.resolved plan.completion) := by
  have found (i : Nat) (act : Act) (at_i : plan.acts[i]? = some act) : builder.events[i]? =
      some (act.left plan.completion next (Act.place plan.acts) []) := by
    rw [describes.getElem?, at_i]
    cases act <;> rfl
  have steps := Step.resolveFrom_eq ordered describes.linked (List.nil_append _).symm
    describes.size (fun i act _ => found i act) #[]
  rw [← describes.size] at steps
  exact steps

end StarlarkSyntax
