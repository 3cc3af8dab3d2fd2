import StarlarkSyntax.Proofs.Builder.Draw
/-!
# Plans follow drafts

The operations change a plan as they change a draft (`Plan.step`), and the acts of the plan draw the
page of the draft all the time. `Follows` is what is kept: the acts draw the page, and for each marker
that may be used still, the acts before the first marker that it wraps draw the page that is
remembered with it, at least while no frame of that page has been closed (`Remembers`).

Nothing is closed between a marker and the act after it, so an act that makes a marker is the last
one only while the marker is the innermost one that is open (`Fresh`). That decides in the end whether
a node was closed last.
-/

set_option autoImplicit false

namespace StarlarkSyntax

/-- What has been described so far, and what each marker has turned out to be. -/
structure Plan where
  acts : List Act := []
  completion : Nat → Completion := fun _ => .unresolved
  /-- How many markers have been made. -/
  count : Nat := 0
deriving Inhabited

namespace Plan

def push (act : Act) (plan : Plan) : Plan :=
  { plan with acts := plan.acts ++ [act] }

def mark (plan : Plan) : Plan :=
  { plan with acts := plan.acts ++ [.opening plan.count []], count := plan.count + 1 }

def resolve (marker : Nat) (completion : Completion) (plan : Plan) : Plan :=
  { plan with completion := Function.update plan.completion marker completion }

def cut (marker : Nat) (plan : Plan) : Plan :=
  { plan with acts := Act.cut marker plan.acts }

def complete (marker : Nat) (completion : Completion) (plan : Plan) : Plan :=
  (plan.resolve marker completion).push .finish

/-- The marker that was made by the last act. -/
def last? (plan : Plan) : Option Nat := plan.acts.getLast?.bind Act.owner?

def drop (marker : Nat) (plan : Plan) : Plan :=
  if plan.last? = some marker then plan.cut marker else plan.resolve marker .abandoned

def precede (marker : Nat) (plan : Plan) : Plan :=
  { plan with
    acts := plan.acts.map (Act.extend marker plan.count) ++ [.wrapper plan.count]
    count := plan.count + 1 }

def advance (draft : Draft) (plan : Plan) : Plan :=
  if draft.page.rest.isEmpty then plan else plan.push .token

/-- What an operation does to a plan that stands for a draft. -/
def step (draft : Draft) (plan : Plan) : Operation → Plan
  | .mark => plan.mark
  | .done marker kind => plan.complete marker (.node kind)
  | .error marker message => plan.complete marker (.error message)
  | .drop marker => plan.drop marker
  | .rollback marker => plan.cut ((draft.records[marker]?.map Record.root).getD 0)
  | .precede marker => plan.precede marker
  | .keep _ => plan
  | .advance => plan.advance draft
  | .missing message => plan.push (.missing message)
  | .advanceError message =>
    if draft.page.rest.isEmpty then plan.push (.missing message)
    else (plan.mark.push .token).complete plan.count (.error message)

end Plan

/-! ## Invariants -/

/-- If a marker was made by the last of some acts, then it is the innermost one that is open. -/
def Fresh (acts : List Act) (markers : List Nat) : Prop :=
  ∀ marker, acts.getLast?.bind Act.owner? = some marker → markers.head? = some marker

theorem last_map (acts : List Act) {change : Act → Act}
    (same : ∀ act, (change act).owner? = act.owner?) :
    (acts.map change).getLast?.bind Act.owner? = acts.getLast?.bind Act.owner? := by
  rw [List.getLast?_map]
  cases acts.getLast? with
  | none => rfl
  | some act => exact same act

theorem fresh_push (acts : List Act) {act : Act} (plain : act.owner? = none) (markers : List Nat) :
    Fresh (acts ++ [act]) markers := by
  intro marker last
  simp [plain] at last

theorem fresh_made (acts : List Act) {act : Act} {marker : Nat} (owner : act.owner? = some marker)
    (markers : List Nat) : Fresh (acts ++ [act]) (marker :: markers) := by
  intro other last
  rw [List.getLast?_concat, Option.bind_some, owner] at last
  exact last

/-- What stood before a marker that has just been made. -/
theorem fresh_cut_last {acts : List Act} {markers : List Nat} (fresh : Fresh acts markers)
    {act : Act} {marker : Nat} (new : marker ∉ Act.owners acts) (owner : act.owner? = some marker) :
    Fresh (Act.cut marker (acts ++ [act])) markers := by
  intro other last
  rw [Act.cut_last new owner, last_map acts (Act.owner?_restrict marker)] at last
  exact fresh other last

/-- What is remembered with a marker is what the acts before it draw. -/
structure Remembers (start : Page) (plan : Plan) (page : Page) (marker : Nat) (record : Record) :
    Prop where
  root_le : record.root ≤ marker
  begun : ∃ wrappers, .opening record.root wrappers ∈ plan.acts ∧
    (record.root :: wrappers).getLast? = some marker
  saved : record.saved.markers <:+ page.markers →
    Page.draw plan.completion (Act.cut record.root plan.acts) start = some record.saved ∧
      Fresh (Act.cut record.root plan.acts) record.saved.markers
  around : ∀ other ∈ page.markers, other < record.root → other ∈ record.saved.markers
  older : ∀ other ∈ record.saved.markers, other < record.root

/-- The plan stands for the draft, if both began with the same page. -/
structure Follows (start : Page) (plan : Plan) (draft : Draft) : Prop where
  count : draft.records.length = plan.count
  bounded : ∀ marker ∈ Act.owners plan.acts, marker < plan.count
  ordered : Act.Ordered plan.acts
  unresolved : ∀ marker, plan.count ≤ marker → plan.completion marker = .unresolved
  page : Page.draw plan.completion plan.acts start = some draft.page
  descending : draft.page.markers.Pairwise (· > ·)
  opened : ∀ marker, marker ∈ draft.page.markers ↔
    ∃ record, draft.records[marker]? = some record ∧ record.status = .opened
  remembers : ∀ marker record, draft.records[marker]? = some record → record.status ≠ .spent →
    Remembers start plan draft.page marker record
  openUnresolved : ∀ marker ∈ draft.page.markers, plan.completion marker = .unresolved
  resolved : ∀ marker ∈ Act.opened plan.acts, plan.completion marker = .unresolved →
    marker ∈ draft.page.markers
  made : ∀ marker record, draft.records[marker]? = some record → record.status = .made →
    plan.completion marker ≠ .abandoned
  fresh : Fresh plan.acts draft.page.markers
  frames : ∀ inner marker outer, draft.page.markers = inner ++ marker :: outer →
    Fresh (Act.cut marker plan.acts) outer

namespace Remembers

variable {start page page' : Page} {plan plan' : Plan} {marker : Nat} {record : Record}

/-- The first marker has been made. -/
theorem mem_owners (remembers : Remembers start plan page marker record) :
    record.root ∈ Act.owners plan.acts := by
  obtain ⟨wrappers, mem, -⟩ := remembers.begun
  exact List.mem_filterMap.2 ⟨.opening record.root wrappers, mem, rfl⟩

/-- What is remembered stays right while the acts before the first marker draw the same. -/
theorem change (remembers : Remembers start plan page marker record) {marker' : Nat}
    (later : marker ≤ marker') (begun : ∃ wrappers, .opening record.root wrappers ∈ plan'.acts ∧
      (record.root :: wrappers).getLast? = some marker')
    (cut : Act.cut record.root plan'.acts = Act.cut record.root plan.acts)
    (suffix : record.saved.markers <:+ page'.markers → record.saved.markers <:+ page.markers)
    (same : record.saved.markers <:+ page'.markers →
      ∀ other ∈ Act.opened (Act.cut record.root plan.acts),
        plan'.completion other = plan.completion other)
    (ordered : Act.Ordered plan.acts) (empty : start.frames = [])
    (within : ∀ other ∈ page'.markers, other < record.root → other ∈ page.markers) :
    Remembers start plan' page' marker' record where
  root_le := Nat.le_trans remembers.root_le later
  begun := begun
  saved := by
    intro usable
    obtain ⟨drawn, fresh⟩ := remembers.saved (suffix usable)
    rw [cut]
    refine ⟨Page.draw_congr drawn ?_ ?_ ?_, fresh⟩
    · rw [Page.markers, empty, List.map_nil, List.append_nil]
      exact (ordered.cut remembers.mem_owners).nodup
    · exact fun other mem => by rw [same usable other mem]
    · intro other mem _
      rw [Page.markers, empty, List.map_nil, List.append_nil] at mem
      exact same usable other mem
  around := fun other mem lt => remembers.around other (within other mem lt) lt
  older := remembers.older

end Remembers

namespace Follows

variable {start : Page} {plan : Plan} {draft : Draft}

section Facts

variable (follows : Follows start plan draft) (empty : start.frames = [])
include follows empty

theorem mem_opened {marker : Nat} (mem : marker ∈ draft.page.markers) :
    marker ∈ Act.opened plan.acts ∧ plan.completion marker ≠ .abandoned := by
  refine (Page.mem_markers_draw follows.page mem).resolve_right ?_
  simp [Page.markers, empty]

theorem mem_owners {marker : Nat} (mem : marker ∈ draft.page.markers) :
    marker ∈ Act.owners plan.acts :=
  follows.ordered.owned marker (follows.mem_opened empty mem).1

theorem lt_count {marker : Nat} (mem : marker ∈ draft.page.markers) : marker < plan.count :=
  follows.bounded marker (follows.mem_owners empty mem)

theorem nodup : (Act.opened plan.acts ++ start.markers).Nodup := by
  rw [Page.markers, empty, List.map_nil, List.append_nil]
  exact follows.ordered.nodup

end Facts

/-! ## Acts that make no marker -/

theorem push (follows : Follows start plan draft) (empty : start.frames = []) {act : Act}
    (plain : act.owner? = none) (opens : act ≠ .finish) {page : Page}
    (drawn : draft.page.act plan.completion act = some page) :
    Follows start (plan.push act) { draft with page } := by
  have noChain := Act.chain_of_plain plain
  have noOwner : Act.owners [act] = [] := by
    simp [Act.owners, plain]
  have opened : Act.opened (plan.acts ++ [act]) = Act.opened plan.acts := by
    simp [noChain]
  have owners : Act.owners (plan.acts ++ [act]) = Act.owners plan.acts := by
    rw [Act.owners_append, noOwner, List.append_nil]
  have markers : page.markers = draft.page.markers := by
    rcases Page.markers_act drawn with ⟨-, same⟩ | ⟨is, -⟩
    · simpa [noChain] using same
    · exact absurd is opens
  exact
    { count := follows.count
      bounded := by
        show ∀ marker ∈ Act.owners (plan.acts ++ [act]), _
        rw [owners]
        exact follows.bounded
      ordered := follows.ordered.push plain
      unresolved := follows.unresolved
      page := (Page.draw_concat follows.page act).trans drawn
      descending := markers ▸ follows.descending
      opened := fun marker => by
        show marker ∈ page.markers ↔ _
        rw [markers]
        exact follows.opened marker
      remembers := by
        intro marker record found live
        have remembers := follows.remembers marker record found live
        obtain ⟨wrappers, mem, last⟩ := remembers.begun
        exact remembers.change (Nat.le_refl _) ⟨wrappers, List.mem_append_left _ mem, last⟩
          (Act.cut_append remembers.mem_owners _) (fun usable => markers ▸ usable)
          (fun _ _ _ => rfl) follows.ordered empty fun other mem _ => markers ▸ mem
      openUnresolved := markers ▸ follows.openUnresolved
      resolved := by
        show ∀ marker ∈ Act.opened (plan.acts ++ [act]), _ → marker ∈ page.markers
        rw [opened, markers]
        exact follows.resolved
      made := follows.made
      fresh := fresh_push _ plain _
      frames := by
        intro inner marker outer same
        change page.markers = _ at same
        rw [markers] at same
        have mem : marker ∈ draft.page.markers := by simp [same]
        show Fresh (Act.cut marker (plan.acts ++ [act])) outer
        rw [Act.cut_append (follows.mem_owners empty mem)]
        exact follows.frames inner marker outer same }

/-! ## Marks -/

theorem getElem?_concat {α : Type} (l : List α) (x : α) (i : Nat) :
    (l ++ [x])[i]? = if i = l.length then some x else l[i]? := by
  rw [List.getElem?_append]
  by_cases inside : i < l.length
  · rw [if_pos inside, if_neg (by omega)]
  · by_cases last : i = l.length
    · simp [last]
    · rw [if_neg inside, if_neg last, List.getElem?_eq_none_iff.2 (by simp; omega),
        List.getElem?_eq_none_iff.2 (by omega)]

theorem cut_mark (follows : Follows start plan draft) {act : Act}
    (owner : act.owner? = some plan.count) :
    Act.cut plan.count (plan.acts ++ [act]) = plan.acts.map (Act.restrict plan.count) :=
  Act.cut_last (fun mem => Nat.lt_irrefl _ (follows.bounded _ mem)) owner

theorem mark (follows : Follows start plan draft) (empty : start.frames = []) :
    Follows start plan.mark draft.mark := by
  have new : plan.count ∉ Act.owners plan.acts := fun mem =>
    Nat.lt_irrefl _ (follows.bounded _ mem)
  have unresolved := follows.unresolved plan.count (Nat.le_refl _)
  have opens : Page.openAll plan.completion [plan.count] draft.page =
      draft.page.openFrame draft.records.length := by
    change (if _ then _ else _) = _
    rw [unresolved, if_neg nofun, follows.count]
    rfl
  have markers : draft.mark.page.markers = plan.count :: draft.page.markers := by
    rw [← follows.count]
    rfl
  have records (marker : Nat) : draft.mark.records[marker]? =
      if marker = plan.count then some ⟨plan.count, draft.page, .opened⟩
      else draft.records[marker]? := by
    rw [← follows.count]
    exact getElem?_concat draft.records _ marker
  refine
    { count := ?_, bounded := ?_, ordered := follows.ordered.mark follows.bounded
      unresolved := ?_, page := ?_, descending := ?_, opened := ?_, remembers := ?_
      openUnresolved := ?_, resolved := ?_, made := ?_, fresh := ?_, frames := ?_ }
  · show (draft.records ++ [_]).length = plan.count + 1
    rw [List.length_append, follows.count]
    rfl
  · show ∀ marker ∈ Act.owners (plan.acts ++ [_]), marker < plan.count + 1
    intro marker mem
    rw [Act.owners_append] at mem
    rcases List.mem_append.1 mem with mem | mem
    · exact Nat.lt_succ_of_lt (follows.bounded marker mem)
    · cases List.mem_singleton.1 mem
      exact Nat.lt_succ_self _
  · exact fun marker le => follows.unresolved marker (Nat.le_of_succ_le le)
  · exact (Page.draw_concat follows.page _).trans (congrArg some opens)
  · rw [markers]
    exact List.pairwise_cons.2 ⟨fun marker mem => follows.lt_count empty mem, follows.descending⟩
  · intro marker
    rw [markers, records, List.mem_cons]
    by_cases last : marker = plan.count
    · simp [last]
    · rw [if_neg last, ← follows.opened marker]
      exact or_iff_right last
  · intro marker record found live
    rw [records] at found
    by_cases last : marker = plan.count
    · rw [if_pos last] at found
      cases found
      subst last
      refine ⟨Nat.le_refl _, ⟨[], List.mem_append_right _ (List.mem_singleton_self _), rfl⟩, ?_, ?_,
        fun other mem => follows.lt_count empty mem⟩
      · intro _
        refine ⟨?_, fresh_cut_last follows.fresh new rfl⟩
        show Page.draw plan.completion (Act.cut plan.count (plan.acts ++ [_])) start = _
        rw [follows.cut_mark rfl, Page.draw_restrict fun other mem le => ?_]
        · exact follows.page
        · have := follows.bounded other (follows.ordered.owned other mem)
          omega
      · intro other mem lt
        rw [markers] at mem
        exact (List.mem_cons.1 mem).resolve_left (Nat.ne_of_lt lt)
    · rw [if_neg last] at found
      have remembers := follows.remembers marker record found live
      have lt : record.root < plan.count := follows.bounded _ remembers.mem_owners
      obtain ⟨wrappers, mem, last⟩ := remembers.begun
      refine remembers.change (Nat.le_refl _) ⟨wrappers, List.mem_append_left _ mem, last⟩
        (Act.cut_append remembers.mem_owners _) ?_ (fun _ _ _ => rfl) follows.ordered empty ?_
      · rw [markers]
        intro suffix
        refine (List.suffix_cons_iff.1 suffix).resolve_left fun same => ?_
        have := remembers.older plan.count (same ▸ List.mem_cons_self)
        omega
      · intro other mem lt'
        rw [markers] at mem
        refine (List.mem_cons.1 mem).resolve_left ?_
        omega
  · rw [markers]
    exact List.forall_mem_cons.2 ⟨unresolved, follows.openUnresolved⟩
  · show ∀ marker ∈ Act.opened (plan.acts ++ [_]), _
    intro marker mem is
    rw [markers]
    rw [Act.opened_append] at mem
    rcases List.mem_append.1 mem with mem | mem
    · exact List.mem_cons_of_mem _ (follows.resolved marker mem is)
    · cases List.mem_singleton.1 mem
      exact List.mem_cons_self
  · intro marker record found is
    rw [records] at found
    by_cases last : marker = plan.count
    · rw [if_pos last] at found
      cases found
      contradiction
    · rw [if_neg last] at found
      exact follows.made marker record found is
  · rw [markers]
    exact fresh_made _ rfl _
  · intro inner marker outer same
    rw [markers] at same
    cases inner with
    | nil =>
        cases same
        exact fresh_cut_last follows.fresh new rfl
    | cons first inner =>
        obtain ⟨-, same⟩ := List.cons.inj same
        have mem : marker ∈ draft.page.markers := by simp [same]
        show Fresh (Act.cut marker (plan.acts ++ [_])) outer
        rw [Act.cut_append (follows.mem_owners empty mem)]
        exact follows.frames inner marker outer same

/-! ## The innermost marker -/

theorem tail_markers {page : Page} {marker : Nat} (follows : Follows start plan draft)
    (markers : draft.page.markers = marker :: page.markers) :
    (∀ other ∈ page.markers, other < marker) ∧ page.markers.Pairwise (· > ·) := by
  have descending := follows.descending
  rw [markers] at descending
  exact List.pairwise_cons.1 descending

/-- The innermost marker is closed or abandoned. -/
theorem leave (follows : Follows start plan draft) (empty : start.frames = []) {marker : Nat}
    {page : Page} (markers : draft.page.markers = marker :: page.markers) {completion : Completion}
    (resolved : completion ≠ .unresolved) {status : Status} (closed : status ≠ .opened)
    (kept : status = .made → completion ≠ .abandoned) {more : List Act}
    (plain : Act.owners more = [] ∧ Act.opened more = [])
    (ordered : Act.Ordered (plan.acts ++ more)) (fresh : Fresh (plan.acts ++ more) page.markers)
    (drawn : Page.draw (Function.update plan.completion marker completion) (plan.acts ++ more)
      start = some page) :
    Follows start
      { plan with
        acts := plan.acts ++ more
        completion := Function.update plan.completion marker completion }
      { page, records := draft.records.modify marker ({ · with status }) } := by
  obtain ⟨below, descending⟩ := follows.tail_markers markers
  have mem : marker ∈ draft.page.markers := by simp [markers]
  have inside {other : Nat} (mem : other ∈ page.markers) : other ∈ draft.page.markers := by
    rw [markers]
    exact List.mem_cons_of_mem _ mem
  have records (other : Nat) (ne : other ≠ marker) :
      (draft.records.modify marker ({ · with status }))[other]? = draft.records[other]? :=
    List.getElem?_modify_ne _ _ (Ne.symm ne)
  have own {record : Record}
      (found : (draft.records.modify marker ({ · with status }))[marker]? = some record) :
      record.status = status ∧ ∃ before, draft.records[marker]? = some before ∧
        before.status = .opened ∧ record.root = before.root ∧ record.saved = before.saved := by
    obtain ⟨before, found', opened⟩ := (follows.opened marker).1 mem
    rw [List.getElem?_modify_eq, found'] at found
    cases found
    exact ⟨rfl, before, found', opened, rfl, rfl⟩
  have owners : Act.owners (plan.acts ++ more) = Act.owners plan.acts := by
    rw [Act.owners_append, plain.1, List.append_nil]
  have opened' : Act.opened (plan.acts ++ more) = Act.opened plan.acts := by
    rw [Act.opened_append, plain.2, List.append_nil]
  refine
    { count := ?_, bounded := ?_, ordered, unresolved := ?_, page := drawn, descending
      opened := ?_, remembers := ?_, openUnresolved := ?_, resolved := ?_, made := ?_, fresh
      frames := ?_ }
  · exact (List.length_modify _ _ _).trans follows.count
  · show ∀ other ∈ Act.owners (plan.acts ++ more), _
    rw [owners]
    exact follows.bounded
  · intro other le
    have ne : other ≠ marker := Nat.ne_of_gt (Nat.lt_of_lt_of_le (follows.lt_count empty mem) le)
    exact (Function.update_of_ne ne _ _).trans (follows.unresolved other le)
  · intro other
    by_cases same : other = marker
    · subst same
      refine iff_of_false (fun mem => Nat.lt_irrefl _ (below other mem)) ?_
      rintro ⟨record, found, is⟩
      exact closed ((own found).1 ▸ is)
    · show other ∈ page.markers ↔ _
      rw [records other same, ← follows.opened other, markers, List.mem_cons]
      exact (or_iff_right same).symm
  · have old (other : Nat) (record : Record)
        (remembers : Remembers start plan draft.page other record) :
        Remembers start
          { plan with
            acts := plan.acts ++ more
            completion := Function.update plan.completion marker completion } page other record := by
      obtain ⟨wrappers, mem', last⟩ := remembers.begun
      refine remembers.change (Nat.le_refl _) ⟨wrappers, List.mem_append_left _ mem', last⟩
        (Act.cut_append remembers.mem_owners _) ?_ ?_ follows.ordered empty
        fun other mem _ => inside mem
      · intro suffix
        rw [markers]
        exact suffix.trans (List.suffix_cons _ _)
      · -- The frames that are remembered are open still, so they were begun before this one.
        intro suffix other begun
        refine Function.update_of_ne ?_ _ _
        rintro rfl
        have lt := follows.ordered.lt_of_mem_opened_cut remembers.mem_owners begun
        exact Nat.lt_irrefl _ (below _ (suffix.subset (remembers.around _ mem lt)))
    intro other record found live
    by_cases same : other = marker
    · subst same
      obtain ⟨-, before, found', opened, root, saved⟩ := own found
      have remembers := old other before
        (follows.remembers other before found' (by rw [opened]; nofun))
      obtain ⟨rootLe, begun, kept, around, older⟩ := remembers
      exact ⟨root ▸ rootLe, root ▸ begun, by rw [root, saved]; exact kept,
        by rw [root, saved]; exact around, by rw [root, saved]; exact older⟩
    · rw [records other same] at found
      exact old other record (follows.remembers other record found live)
  · intro other mem
    have ne : other ≠ marker := Nat.ne_of_lt (below other mem)
    exact (Function.update_of_ne ne _ _).trans (follows.openUnresolved other (inside mem))
  · show ∀ other ∈ Act.opened (plan.acts ++ more), _
    rw [opened']
    intro other begun is
    by_cases same : other = marker
    · subst same
      change Function.update plan.completion other completion other = _ at is
      rw [Function.update_self] at is
      exact absurd is resolved
    · have is : plan.completion other = .unresolved :=
        (Function.update_of_ne same _ _).symm.trans is
      have := follows.resolved other begun is
      rw [markers] at this
      exact (List.mem_cons.1 this).resolve_left same
  · intro other record found is
    by_cases same : other = marker
    · subst same
      obtain ⟨status', -⟩ := own found
      show Function.update _ _ _ _ ≠ _
      rw [Function.update_self]
      exact kept (status'.symm.trans is)
    · rw [records other same] at found
      show Function.update _ _ _ _ ≠ _
      rw [Function.update_of_ne same]
      exact follows.made other record found is
  · intro inner other outer same
    change page.markers = _ at same
    have mem : other ∈ draft.page.markers := inside (by simp [same])
    show Fresh (Act.cut other (plan.acts ++ more)) outer
    rw [Act.cut_append (follows.mem_owners empty mem)]
    exact follows.frames (marker :: inner) other outer (by rw [markers, same]; rfl)

theorem close_spec {kind : NodeKind} {message? : Option String} {page next : Page}
    (closed : page.close kind message? = some next) :
    ∃ marker, page.markers = marker :: next.markers := by
  unfold Page.close at closed
  split at closed
  · contradiction
  · rename_i marker outside frames found
    cases closed
    exact ⟨marker, by rw [Page.markers, found]; rfl⟩

theorem complete {draft' : Draft} (follows : Follows start plan draft) (empty : start.frames = [])
    {marker : Nat} {completion : Completion} (resolved : completion ≠ .unresolved)
    (kept : completion ≠ .abandoned)
    (done : draft.complete marker completion.shape.1 completion.shape.2 = some draft') :
    Follows start (plan.complete marker completion) draft' := by
  obtain ⟨record, page, -, -, innermost, closed, rfl⟩ := Draft.complete_spec done
  obtain ⟨marker', markers⟩ := close_spec closed
  have same : marker' = marker := by simpa [markers] using innermost
  subst same
  have mem : marker' ∈ draft.page.markers := by simp [markers]
  have drawn : Page.draw (Function.update plan.completion marker' completion) plan.acts start =
      some draft.page := by
    refine Page.draw_congr follows.page (follows.nodup empty) ?_ ?_
    · intro other _
      by_cases same : other = marker'
      · subst same
        rw [Function.update_self, follows.openUnresolved other mem]
        exact iff_of_false kept nofun
      · rw [Function.update_of_ne same]
    · intro other _ gone
      refine Function.update_of_ne ?_ _ _
      rintro rfl
      exact gone mem
  refine follows.leave empty markers resolved (by decide) (fun _ => kept) ⟨rfl, rfl⟩
    (follows.ordered.push rfl) (fresh_push _ rfl _) ((Page.draw_concat drawn .finish).trans ?_)
  unfold Page.markers at markers
  cases found : draft.page.frames with
  | nil => simp [found] at markers
  | cons frame frames =>
      have same : frame.marker = marker' := by
        rw [found] at markers
        exact (List.cons.inj markers).1
      simp only [Page.act, found, same, Function.update_self]
      exact closed

/-! ## Taking back -/

/-- The acts are cut off where a marker was made. Only what was made before it can be used still. -/
theorem cutTo (follows : Follows start plan draft) (empty : start.frames = []) {root : Nat}
    (mem : root ∈ Act.owners plan.acts) {page : Page}
    (suffix : page.markers <:+ draft.page.markers) (older : ∀ other ∈ page.markers, other < root)
    (around : ∀ other ∈ draft.page.markers, other < root → other ∈ page.markers)
    (drawn : Page.draw plan.completion (Act.cut root plan.acts) start = some page)
    (fresh : Fresh (Act.cut root plan.acts) page.markers) {records : List Record}
    (length : records.length = draft.records.length)
    (same : ∀ other < root, records[other]? = draft.records[other]?)
    (spent : ∀ other record, records[other]? = some record → record.status ≠ .spent →
      other < root) :
    Follows start (plan.cut root) ⟨page, records⟩ := by
  have ordered := follows.ordered
  have before (other : Nat) (record : Record) (found : records[other]? = some record)
      (live : record.status ≠ .spent) :
      other < root ∧ draft.records[other]? = some record := by
    have lt := spent other record found live
    exact ⟨lt, (same other lt).symm.trans found⟩
  refine
    { count := length.trans follows.count, bounded := ?_, ordered := ordered.cut mem
      unresolved := follows.unresolved, page := drawn
      descending := follows.descending.sublist suffix.sublist, opened := ?_, remembers := ?_
      openUnresolved := fun other mem => follows.openUnresolved other (suffix.subset mem)
      resolved := ?_, made := ?_, fresh, frames := ?_ }
  · intro other mem'
    exact follows.bounded other ((ordered.mem_owners_cut mem other).1 mem').1
  · intro other
    show other ∈ page.markers ↔ ∃ record, records[other]? = some record ∧ _
    constructor
    · intro mem'
      rw [same other (older other mem')]
      exact (follows.opened other).1 (suffix.subset mem')
    · rintro ⟨record, found, is⟩
      obtain ⟨lt, found⟩ := before other record found (by rw [is]; nofun)
      exact around other ((follows.opened other).2 ⟨record, found, is⟩) lt
  · intro other record found live
    obtain ⟨lt, found⟩ := before other record found live
    have remembers := follows.remembers other record found live
    have earlier : record.root < root := Nat.lt_of_le_of_lt remembers.root_le lt
    refine remembers.change (Nat.le_refl _) ?_ (ordered.cut_cut earlier remembers.mem_owners mem)
      (fun usable => usable.trans suffix) (fun _ _ _ => rfl) ordered empty
      fun other mem _ => suffix.subset mem
    obtain ⟨wrappers, mem', last⟩ := remembers.begun
    obtain ⟨before, act, after, parts, owner, below, above, cut⟩ := ordered.cut_split mem
    have chain := ordered.chains _ mem'
    refine ⟨wrappers, ?_, last⟩
    have taken : .opening record.root wrappers ∈ before := by
      rw [parts] at mem'
      rcases List.mem_append.1 mem' with mem' | mem'
      · exact mem'
      · have late : root ≤ record.root := by
          rcases List.mem_cons.1 mem' with is | mem'
          · rw [← is] at owner
            exact Nat.le_of_eq (Option.some.inj owner).symm
          · exact Nat.le_of_lt (above _ (Act.mem_owners_of_mem mem' rfl))
        exact absurd earlier (Nat.not_lt.2 late)
    have unrestricted : Act.restrict root (.opening record.root wrappers) =
        .opening record.root wrappers := by
      unfold Act.restrict
      dsimp only
      rw [List.filter_eq_self.2]
      intro wrapper mem
      obtain ⟨inside, chain'⟩ := List.getLast?_eq_some_iff.1 last
      have order : (inside ++ [other]).Pairwise (· < ·) := chain' ▸ chain
      have among : wrapper ∈ inside ++ [other] := chain' ▸ List.mem_cons_of_mem _ mem
      have le : wrapper ≤ other := by
        rcases List.mem_append.1 among with mem | mem
        · exact Nat.le_of_lt ((List.pairwise_append.1 order).2.2 wrapper mem other
            (List.mem_singleton_self _))
        · exact Nat.le_of_eq (List.mem_singleton.1 mem)
      simpa using Nat.lt_of_le_of_lt le lt
    show _ ∈ Act.cut root plan.acts
    rw [cut, ← unrestricted]
    exact List.mem_map_of_mem taken
  · intro other begun is
    have lt := ordered.lt_of_mem_opened_cut mem begun
    exact around other (follows.resolved other
      ((Act.opened_cut_sublist root plan.acts).subset begun) is) lt
  · intro other record found is
    obtain ⟨-, found⟩ := before other record found (by rw [is]; nofun)
    exact follows.made other record found is
  · intro inner other outer parts
    change page.markers = _ at parts
    have lt : other < root := older other (by simp [parts])
    obtain ⟨newer, whole⟩ := suffix
    have open' : other ∈ draft.page.markers := by simp [← whole, parts]
    show Fresh (Act.cut other (Act.cut root plan.acts)) outer
    rw [ordered.cut_cut lt (follows.mem_owners empty open') mem]
    exact follows.frames (newer ++ inner) other outer (by rw [← whole, parts, List.append_assoc])

/-- If the last act made the innermost marker, cutting the acts off there is the same as abandoning the
marker. -/
theorem draw_cut_last (follows : Follows start plan draft) (empty : start.frames = [])
    {marker : Nat} (innermost : draft.page.markers.head? = some marker)
    (last : plan.last? = some marker) :
    Page.draw plan.completion (Act.cut marker plan.acts) start =
      some (draft.page.forget marker) := by
  have ordered := follows.ordered
  have mem : marker ∈ draft.page.markers := List.mem_of_mem_head? innermost
  obtain ⟨act, found, owner⟩ := Option.bind_eq_some_iff.1 last
  obtain ⟨acts, parts⟩ := List.getLast?_eq_some_iff.1 found
  have unopened : start.forget marker = start :=
    Page.forget_of_not_mem (by simp [Page.markers, empty])
  have drawn := Page.draw_abandon follows.page (follows.nodup empty) mem
  rw [unopened, parts, Page.draw_append] at drawn
  obtain ⟨page, before, rest⟩ := Option.bind_eq_some_iff.1 drawn
  have sorted := ordered.sorted
  have ownersLast : Act.owners [act] = [marker] := by simp [Act.owners, owner]
  rw [parts, Act.owners_append, ownersLast] at sorted
  have below : ∀ other ∈ Act.owners acts, other < marker := fun other mem =>
    (List.pairwise_append.1 sorted).2.2 other mem marker (List.mem_singleton_self _)
  have atMost : ∀ other ∈ Act.opened plan.acts, other ≤ marker := by
    intro other begun
    have owned := ordered.owned other begun
    rw [parts, Act.owners_append, ownersLast, List.mem_append] at owned
    rcases owned with owned | owned
    · exact Nat.le_of_lt (below other owned)
    · exact Nat.le_of_eq (List.mem_singleton.1 owned)
  -- The last act opens nothing but the marker.
  have nothing : draft.page.forget marker = page := by
    have alone (page : Page) :
        page.act (Function.update plan.completion marker .abandoned) act = some page := by
      cases act with
      | opening first wrappers =>
          cases owner
          have none : wrappers = [] := by
            refine List.eq_nil_iff_forall_not_mem.2 fun wrapper mem => ?_
            have among : .opening marker wrappers ∈ plan.acts := by simp [parts]
            have later := (List.pairwise_cons.1 (ordered.chains _ among)).1 wrapper mem
            have le := atMost wrapper
              (Act.mem_opened_of_mem among (List.mem_cons_of_mem _ mem))
            omega
          subst none
          change some (if _ then _ else _) = _
          rw [Function.update_self, if_pos rfl]
          rfl
      | wrapper first => rfl
      | finish | token | missing => contradiction
    rw [Page.draw_cons, alone] at rest
    exact (Option.some.inj rest).symm
  have cut : Act.cut marker plan.acts = acts.map (Act.restrict marker) := by
    rw [parts]
    exact Act.cut_last (fun mem => Nat.lt_irrefl _ (below marker mem)) owner
  have atMost' : ∀ other ∈ Act.opened acts, other ≤ marker := fun other mem =>
    atMost other (by rw [parts, Act.opened_append]; exact List.mem_append_left _ mem)
  rw [nothing]
  have restricted : Page.draw (Function.update plan.completion marker .abandoned)
      (Act.cut marker plan.acts) start = some page := by
    rw [cut, Page.draw_restrict fun other mem le => ?_]
    · exact before
    · have same : other = marker := Nat.le_antisymm (atMost' other mem) le
      rw [same, Function.update_self]
  have away : ∀ other ∈ Act.opened (Act.cut marker plan.acts),
      plan.completion other = Function.update plan.completion marker .abandoned other :=
    fun other mem' => (Function.update_of_ne (Nat.ne_of_lt
      (ordered.lt_of_mem_opened_cut (follows.mem_owners empty mem) mem')) _ _).symm
  have noStart : start.markers = [] := by simp [Page.markers, empty]
  refine Page.draw_congr restricted ?_ (fun other mem => by rw [away other mem]) ?_
  · rw [noStart, List.append_nil]
    exact (ordered.cut (follows.mem_owners empty mem)).nodup
  · intro other mem _
    rw [noStart, List.append_nil] at mem
    exact away other mem

theorem forget_head {page : Page} {marker : Nat}
    (innermost : page.markers.head? = some marker) :
    page.markers = marker :: (page.forget marker).markers := by
  unfold Page.markers at innermost ⊢
  cases found : page.frames with
  | nil => simp [found] at innermost
  | cons frame frames =>
      have same : frame.marker = marker := by simpa [found] using innermost
      simp [Page.forget, found, Page.without, same]

theorem drop {draft' : Draft} (follows : Follows start plan draft) (empty : start.frames = [])
    {marker : Nat} (dropped : draft.drop marker = some draft') :
    Follows start (plan.drop marker) draft' := by
  obtain ⟨record, page, found, is, innermost, spliced, rfl⟩ := Draft.drop_spec dropped
  rw [Page.splice_eq_forget innermost] at spliced
  cases spliced
  have markers := forget_head innermost
  have mem : marker ∈ draft.page.markers := List.mem_of_mem_head? innermost
  obtain ⟨below, -⟩ := follows.tail_markers markers
  unfold Plan.drop
  split
  · rename_i last
    have noneLater : ∀ other record, draft.records[other]? = some record →
        record.status ≠ .spent → other ≤ marker := by
      intro other record found live
      obtain ⟨wrappers, mem', last'⟩ := (follows.remembers other record found live).begun
      have owned := follows.ordered.owned other
        (Act.mem_opened_of_mem mem' (List.mem_of_getLast? last'))
      obtain ⟨act, isLast, owner⟩ := Option.bind_eq_some_iff.1 last
      obtain ⟨acts, parts⟩ := List.getLast?_eq_some_iff.1 isLast
      have sorted := follows.ordered.sorted
      have ownersLast : Act.owners [act] = [marker] := by simp [Act.owners, owner]
      rw [parts, Act.owners_append, ownersLast] at sorted owned
      rcases List.mem_append.1 owned with owned | owned
      · exact Nat.le_of_lt ((List.pairwise_append.1 sorted).2.2 other owned marker
          (List.mem_singleton_self _))
      · exact Nat.le_of_eq (List.mem_singleton.1 owned)
    refine follows.cutTo empty (follows.mem_owners empty mem) ?_ below ?_
      (follows.draw_cut_last empty innermost last) ?_ (List.length_modify _ _ _) ?_ ?_
    · rw [markers]
      exact List.suffix_cons _ _
    · intro other mem lt
      rw [markers] at mem
      exact (List.mem_cons.1 mem).resolve_left (Nat.ne_of_lt lt)
    · exact follows.frames [] marker _ markers
    · exact fun other lt => List.getElem?_modify_ne _ _ (Nat.ne_of_gt lt)
    · intro other record found live
      by_cases same : other = marker
      · subst same
        rw [List.getElem?_modify_eq] at found
        obtain ⟨before, -, rfl⟩ := Option.map_eq_some_iff.1 found
        exact absurd rfl live
      · rw [List.getElem?_modify_ne _ _ (Ne.symm same)] at found
        exact Nat.lt_of_le_of_ne (noneLater other record found live) same
  · rename_i notLast
    have unopened : start.forget marker = start :=
      Page.forget_of_not_mem (by simp [Page.markers, empty])
    have drawn := Page.draw_abandon follows.page (follows.nodup empty) mem
    rw [unopened] at drawn
    have fresh : Fresh (plan.acts ++ []) (draft.page.forget marker).markers := by
      rw [List.append_nil]
      intro other last
      have head := follows.fresh other last
      rw [innermost] at head
      cases head
      exact absurd last notLast
    have left := follows.leave empty markers (by decide : Completion.abandoned ≠ .unresolved)
      (by decide : Status.spent ≠ .opened) (by decide)
      ⟨rfl, rfl⟩ (by rw [List.append_nil]; exact follows.ordered) fresh
      (by rw [List.append_nil]; exact drawn)
    rw [List.append_nil] at left
    exact left

theorem rollback {draft' : Draft} (follows : Follows start plan draft) (empty : start.frames = [])
    {marker : Nat} (back : draft.rollback marker = some draft') :
    Follows start (plan.step draft (.rollback marker)) draft' := by
  obtain ⟨record, found, live, suffix, rfl⟩ := Draft.rollback_spec back
  have remembers := follows.remembers marker record found live
  obtain ⟨drawn, fresh⟩ := remembers.saved suffix
  have inside : marker < draft.records.length := (List.getElem?_eq_some_iff.1 found).1
  have size : (draft.records.take record.root).length = record.root := by
    have := remembers.root_le
    rw [List.length_take]
    omega
  have root : plan.step draft (.rollback marker) = plan.cut record.root := by
    simp [Plan.step, found]
  rw [root]
  refine follows.cutTo empty remembers.mem_owners suffix remembers.older remembers.around drawn fresh
    ?_ ?_ ?_
  · rw [List.length_append, List.length_map, ← List.length_append, List.take_append_drop]
  · intro other lt
    rw [List.getElem?_append_left (by omega), List.getElem?_take_of_lt lt]
  · intro other record' found' live'
    by_cases before : other < record.root
    · exact before
    · rw [List.getElem?_append_right (by omega), List.getElem?_map] at found'
      obtain ⟨old, -, rfl⟩ := Option.map_eq_some_iff.1 found'
      exact absurd rfl live'

/-! ## Wrapping and keeping -/

theorem among_of_wrap {page wrapped : Page} {made marker : Nat}
    (wraps : page.wrap made marker = some wrapped) :
    Page.Among made page.items ∧ wrapped.markers = marker :: page.markers := by
  unfold Page.wrap at wraps
  split at wraps
  · contradiction
  · rename_i nonempty
    refine ⟨?_, by cases wraps; rfl⟩
    cases left : page.items.dropWhile (!·.isMadeWith made) with
    | nil => exact absurd left nonempty
    | cons item more =>
        have stops := List.head?_dropWhile_not (!·.isMadeWith made) page.items
        rw [left] at stops
        have mem : item ∈ page.items :=
          (List.dropWhile_sublist _).subset (left ▸ List.mem_cons_self)
        exact ⟨item, mem, by simpa using stops⟩

theorem precede {draft' : Draft} (follows : Follows start plan draft)
    (empty : start.frames = [] ∧ start.items = []) {marker : Nat}
    (preceded : draft.precede marker = some draft') :
    Follows start (plan.precede marker) draft' := by
  obtain ⟨record, page, found, is, wraps, rfl⟩ := Draft.precede_spec preceded
  rw [follows.count] at wraps
  obtain ⟨among, markers⟩ := among_of_wrap wraps
  have remembers := follows.remembers marker record found (by rw [is]; nofun)
  obtain ⟨wrappers, mem, last⟩ := remembers.begun
  obtain ⟨before, after, parts⟩ := List.append_of_mem mem
  have extended := follows.ordered.map_extend parts last plan.count
  have unresolved := follows.unresolved plan.count (Nat.le_refl _)
  have new : plan.count ∉ Act.owners plan.acts := fun mem =>
    Nat.lt_irrefl _ (follows.bounded _ mem)
  have rootLt : record.root < plan.count := follows.bounded _ remembers.mem_owners
  have drawn := follows.page
  rw [parts] at drawn
  obtain ⟨wrapped, same, draws⟩ := Page.draw_wrap empty drawn
    (by rw [← parts]; exact follows.ordered.nodup) last
    (follows.made marker record found is) (by rw [unresolved]; nofun) among
  cases wraps.symm.trans same
  have acts : (plan.precede marker).acts =
      before ++ .opening record.root (wrappers ++ [plan.count]) :: after ++
        [.wrapper plan.count] := by
    rw [← extended]
    rfl
  have owners : Act.owners (plan.precede marker).acts = Act.owners plan.acts ++ [plan.count] := by
    show Act.owners (plan.acts.map _ ++ [_]) = _
    rw [Act.owners_append, Act.owners_map_extend]
    rfl
  have cut {other : Nat} (owned : other ∈ Act.owners plan.acts) :
      Act.cut other (plan.precede marker).acts = Act.cut other plan.acts := by
    show Act.cut other (plan.acts.map _ ++ [_]) = _
    rw [Act.cut_append (by rw [Act.owners_map_extend]; exact owned),
      Act.cut_extend (Nat.le_of_lt (follows.bounded other owned))]
  have suffix {record : Record} (older : ∀ other ∈ record.saved.markers, other < record.root)
      (lt : record.root < plan.count) (usable : record.saved.markers <:+ page.markers) :
      record.saved.markers <:+ draft.page.markers := by
    rw [markers] at usable
    refine (List.suffix_cons_iff.1 usable).resolve_left fun same => ?_
    have := older plan.count (same ▸ List.mem_cons_self)
    omega
  have within {root : Nat} (lt : root < plan.count) :
      ∀ other ∈ page.markers, other < root → other ∈ draft.page.markers := by
    intro other mem lt'
    rw [markers] at mem
    exact (List.mem_cons.1 mem).resolve_left (by omega)
  have records (other : Nat) :
      (draft.records.modify marker ({ · with status := .spent }) ++
        [{ record with status := .opened }])[other]? =
      if other = plan.count then some { record with status := .opened }
      else if other = marker then some { record with status := .spent }
      else draft.records[other]? := by
    rw [getElem?_concat, List.length_modify, follows.count]
    split
    · rfl
    · split
      · rename_i same
        rw [same, List.getElem?_modify_eq, found]
        rfl
      · rename_i ne
        exact List.getElem?_modify_ne _ _ (Ne.symm ne)
  have fresh : Fresh (plan.acts.map (Act.extend marker plan.count)) draft.page.markers := by
    intro other last
    rw [last_map plan.acts (Act.owner?_extend marker plan.count)] at last
    exact follows.fresh other last
  refine
    { count := ?_, bounded := ?_, ordered := ?_, unresolved := ?_, page := ?_, descending := ?_
      opened := ?_, remembers := ?_, openUnresolved := ?_, resolved := ?_, made := ?_, fresh := ?_
      frames := ?_ }
  · show (_ ++ [_]).length = plan.count + 1
    rw [List.length_append, List.length_modify, follows.count]
    rfl
  · show ∀ other ∈ Act.owners (plan.precede marker).acts, other < plan.count + 1
    rw [owners]
    refine List.forall_mem_append.2 ⟨fun other mem => ?_, ?_⟩
    · exact Nat.lt_succ_of_lt (follows.bounded other mem)
    · exact List.forall_mem_singleton.2 (Nat.lt_succ_self _)
  · rw [acts]
    exact follows.ordered.wrap parts follows.bounded
  · exact fun other le => follows.unresolved other (Nat.le_of_succ_le le)
  · show Page.draw plan.completion (plan.precede marker).acts start = some page
    rw [acts, Page.draw_append, draws]
    rfl
  · show page.markers.Pairwise _
    rw [markers]
    exact List.pairwise_cons.2 ⟨fun other mem => follows.lt_count empty.1 mem, follows.descending⟩
  · intro other
    show other ∈ page.markers ↔ ∃ record', (_ ++ [_] : List Record)[other]? = some record' ∧ _
    rw [markers, records, List.mem_cons]
    by_cases newest : other = plan.count
    · simp [newest]
    · rw [if_neg newest, follows.opened other]
      by_cases same : other = marker
      · subst same
        rw [if_pos rfl, found]
        simp [newest, is]
      · rw [if_neg same]
        exact or_iff_right newest
  · intro other record' found' live
    change (_ ++ [_] : List Record)[other]? = some record' at found'
    rw [records] at found'
    by_cases newest : other = plan.count
    · rw [if_pos newest] at found'
      cases found'
      subst newest
      have begun : ∃ wrappers, .opening record.root wrappers ∈ (plan.precede marker).acts ∧
          (record.root :: wrappers).getLast? = some plan.count := by
        refine ⟨wrappers ++ [plan.count], ?_, by rw [← List.cons_append, List.getLast?_concat]⟩
        rw [acts]
        simp
      have kept := remembers.change (Nat.le_of_lt (Nat.lt_of_le_of_lt (Nat.le_refl _)
        (follows.bounded marker (follows.ordered.owned marker
          (Act.mem_opened_of_mem mem (List.mem_of_getLast? last)))))) begun
        (cut remembers.mem_owners) (suffix remembers.older rootLt) (fun _ _ _ => rfl)
        follows.ordered empty.1 (within rootLt)
      exact ⟨kept.root_le, kept.begun, kept.saved, kept.around, kept.older⟩
    · rw [if_neg newest] at found'
      by_cases same : other = marker
      · rw [if_pos same] at found'
        cases found'
        contradiction
      · rw [if_neg same] at found'
        have remembers' := follows.remembers other record' found' live
        have lt : record'.root < plan.count := follows.bounded _ remembers'.mem_owners
        refine remembers'.change (Nat.le_refl _) ?_ (cut remembers'.mem_owners)
          (suffix remembers'.older lt) (fun _ _ _ => rfl) follows.ordered empty.1 (within lt)
        obtain ⟨wrappers', mem', last'⟩ := remembers'.begun
        refine ⟨wrappers', List.mem_append_left _ (List.mem_map.2 ⟨_, mem', ?_⟩), last'⟩
        have other' : (record'.root :: wrappers').getLast? ≠ some marker := by
          rw [last']
          exact fun same' => same (Option.some.inj same')
        simp only [Act.extend, if_neg other']
  · show ∀ other ∈ page.markers, _
    rw [markers]
    exact List.forall_mem_cons.2 ⟨unresolved, follows.openUnresolved⟩
  · intro other begun is'
    show other ∈ page.markers
    rw [markers]
    rw [acts] at begun
    have among : other = plan.count ∨ other ∈ Act.opened plan.acts := by
      rw [parts]
      simp only [Act.opened_append, Act.opened_cons, Act.opened_nil, Act.chain, List.mem_append,
        List.mem_cons, List.not_mem_nil, or_false] at begun ⊢
      tauto
    rcases among with newest | begun
    · exact newest ▸ List.mem_cons_self
    · exact List.mem_cons_of_mem _ (follows.resolved other begun is')
  · intro other record' found' is'
    change (_ ++ [_] : List Record)[other]? = some record' at found'
    rw [records] at found'
    by_cases newest : other = plan.count
    · rw [if_pos newest] at found'
      cases found'
      contradiction
    · rw [if_neg newest] at found'
      by_cases same : other = marker
      · rw [if_pos same] at found'
        cases found'
        contradiction
      · rw [if_neg same] at found'
        exact follows.made other record' found' is'
  · show Fresh (plan.acts.map _ ++ [_]) page.markers
    rw [markers]
    exact fresh_made _ rfl _
  · intro inner other outer same
    change page.markers = _ at same
    rw [markers] at same
    cases inner with
    | nil =>
        cases same
        refine fresh_cut_last fresh ?_ rfl
        rw [Act.owners_map_extend]
        exact new
    | cons first inner =>
        obtain ⟨-, same⟩ := List.cons.inj same
        have mem : other ∈ draft.page.markers := by simp [same]
        rw [cut (follows.mem_owners empty.1 mem)]
        exact follows.frames inner other outer same

theorem keep {draft' : Draft} (follows : Follows start plan draft) {marker : Nat}
    (kept : draft.keep marker = some draft') : Follows start plan draft' := by
  obtain ⟨record, found, is, rfl⟩ := Draft.keep_spec kept
  have records {other : Nat} {record' : Record}
      (found' : (draft.records.modify marker ({ · with status := .spent }))[other]? = some record')
      (live : record'.status ≠ .spent) : draft.records[other]? = some record' := by
    by_cases same : other = marker
    · subst same
      rw [List.getElem?_modify_eq, found] at found'
      cases found'
      contradiction
    · rwa [List.getElem?_modify_ne _ _ (Ne.symm same)] at found'
  exact { follows with
    count := (List.length_modify _ _ _).trans follows.count
    opened := by
      intro other
      rw [follows.opened other]
      constructor
      · rintro ⟨record', found', is'⟩
        have ne : marker ≠ other := by
          rintro rfl
          cases found.symm.trans found'
          cases is.symm.trans is'
        exact ⟨record', (List.getElem?_modify_ne _ _ ne).trans found', is'⟩
      · rintro ⟨record', found', is'⟩
        exact ⟨record', records found' (by rw [is']; nofun), is'⟩
    remembers := fun other record' found' live =>
      follows.remembers other record' (records found' live) live
    made := fun other record' found' is' =>
      follows.made other record' (records found' (by rw [is']; nofun)) is' }

/-! ## All operations -/

theorem advance (follows : Follows start plan draft) (empty : start.frames = []) :
    Follows start (plan.advance draft) { draft with page := draft.page.advance } := by
  unfold Plan.advance
  cases rest : draft.page.rest with
  | nil =>
      have same : draft.page.advance = draft.page := by simp [Page.advance, rest]
      rw [same]
      exact follows
  | cons token rest' =>
      refine follows.push empty rfl (by decide : Act.token ≠ .finish) ?_
      simp [Page.act, rest]

theorem missing (follows : Follows start plan draft) (empty : start.frames = [])
    (message : String) : Follows start (plan.push (.missing message))
      { draft with page := draft.page.add (.missing message) } :=
  follows.push empty rfl (nofun : Act.missing message ≠ .finish) rfl

/-- An operation changes the plan as it changes the draft. -/
theorem step {draft' : Draft} (follows : Follows start plan draft)
    (empty : start.frames = [] ∧ start.items = []) {operation : Operation}
    (stepped : draft.step operation = some draft') :
    Follows start (plan.step draft operation) draft' := by
  cases operation with
  | mark =>
      cases stepped
      exact follows.mark empty.1
  | done marker kind =>
      exact follows.complete empty.1 (nofun : Completion.node kind ≠ .unresolved) nofun stepped
  | error marker message =>
      exact follows.complete empty.1 (nofun : Completion.error message ≠ .unresolved) nofun stepped
  | drop marker => exact follows.drop empty.1 stepped
  | rollback marker => exact follows.rollback empty.1 stepped
  | precede marker => exact follows.precede empty stepped
  | keep marker => exact follows.keep stepped
  | advance =>
      cases stepped
      exact follows.advance empty.1
  | missing message =>
      cases stepped
      exact follows.missing empty.1 message
  | advanceError message =>
      unfold Draft.step at stepped
      unfold Plan.step
      dsimp only at stepped ⊢
      split at stepped
      · rename_i none
        cases stepped
        rw [if_pos none]
        exact follows.missing empty.1 message
      · rename_i more
        rw [if_neg more]
        obtain ⟨completed, done, kept⟩ := Option.bind_eq_some_iff.1 stepped
        have advanced := (follows.mark empty.1).advance empty.1
        have pushed : plan.mark.advance draft.mark = plan.mark.push .token := if_neg more
        rw [pushed] at advanced
        rw [follows.count] at done kept
        exact (advanced.complete empty.1 (nofun : Completion.error message ≠ .unresolved) nofun
          done).keep kept

end Follows

/-- At first there are no acts, and the page is that of the draft. -/
theorem follows_ofLexed (lexed : Lexed) :
    Follows (Draft.ofLexed lexed).page {} (Draft.ofLexed lexed) where
  count := rfl
  bounded := nofun
  ordered := ⟨.nil, .nil, nofun, nofun, nofun⟩
  unresolved := fun _ _ => rfl
  page := rfl
  descending := .nil
  opened := fun marker => iff_of_false nofun (by simp [Draft.ofLexed])
  remembers := fun marker record found => by simp [Draft.ofLexed] at found
  openUnresolved := nofun
  resolved := nofun
  made := fun marker record found => by simp [Draft.ofLexed] at found
  fresh := nofun
  frames := fun inner marker outer same => by simp [Draft.ofLexed, Page.markers] at same

end StarlarkSyntax
