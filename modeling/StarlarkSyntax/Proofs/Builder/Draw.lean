import Mathlib.Data.List.TakeWhile
import Mathlib.Logic.Function.Basic
import StarlarkSyntax.Proofs.Builder.Plan
/-!
# What a plan draws

`Page.draw` goes over the acts of a plan once and makes a page of them, given what each marker has
turned out to be. What a draft does to its page is done to the acts without looking at pages:

* to abandon the innermost open marker is to splice its frame (`draw_abandon`);
* to put a wrapper around a node is to open a frame around it and everything after it (`draw_wrap`).

Both follow the two runs side by side. The first keeps that the pages differ by one frame
(`Page.forget`). The second needs that the acts since the node began close no frame that was open
then, and finds that out from the node, which could not stand in the innermost frame otherwise.
-/

set_option autoImplicit false

namespace StarlarkSyntax

/-- The kind and the message of the node that a beginning turns out to be. -/
def Completion.shape : Completion → NodeKind × Option String
  | node kind => (kind, none)
  | error message => (.error, some message)
  | _ => (.error, none)

namespace Page

/-- Opens a marker and its wrappers, without those that were abandoned. -/
def openAll (completion : Nat → Completion) (chain : List Nat) (page : Page) : Page :=
  chain.foldr (fun marker page =>
    if completion marker = .abandoned then page else page.openFrame marker) page

/-- Does one act. -/
def act (completion : Nat → Completion) (page : Page) : Act → Option Page
  | .opening marker wrappers => some (page.openAll completion (marker :: wrappers))
  | .wrapper _ => some page
  | .finish =>
    match page.frames with
    | [] => none
    | frame :: _ =>
      page.close (completion frame.marker).shape.1 (completion frame.marker).shape.2
  | .token => if page.rest.isEmpty then none else some page.advance
  | .missing message => some (page.add (.missing message))

/-- Does some acts, if a frame is open at each end of one, and a token left at each token. -/
def draw (completion : Nat → Completion) : List Act → Page → Option Page
  | [], page => some page
  | act :: acts, page => (page.act completion act).bind (draw completion acts)

/-! ## One act at a time -/

section Draw

variable {completion : Nat → Completion}

@[simp] theorem draw_nil (page : Page) : draw completion [] page = some page := rfl

theorem draw_cons (act : Act) (acts : List Act) (page : Page) :
    draw completion (act :: acts) page = (page.act completion act).bind (draw completion acts) :=
  rfl

theorem draw_append (s t : List Act) (page : Page) :
    draw completion (s ++ t) page = (draw completion s page).bind (draw completion t) := by
  induction s generalizing page with
  | nil => rfl
  | cons act s ih =>
      rw [List.cons_append, draw_cons, draw_cons]
      cases page.act completion act with
      | none => rfl
      | some next => exact ih next

theorem draw_concat {acts : List Act} {page next : Page} (drawn : draw completion acts page = some next)
    (act : Act) : draw completion (acts ++ [act]) page = next.act completion act := by
  rw [draw_append, drawn, Option.bind_some, draw_cons]
  cases next.act completion act <;> rfl

@[simp] theorem markers_add (item : Item) (page : Page) : (page.add item).markers = page.markers :=
  rfl

@[simp] theorem markers_advance (page : Page) : page.advance.markers = page.markers := by
  unfold advance
  split <;> rfl

@[simp] theorem markers_openFrame (marker : Nat) (page : Page) :
    (page.openFrame marker).markers = marker :: page.markers := rfl

theorem markers_openAll (chain : List Nat) (page : Page) :
    (page.openAll completion chain).markers =
      chain.filter (completion · ≠ .abandoned) ++ page.markers := by
  induction chain with
  | nil => rfl
  | cons marker chain ih =>
      change (if completion marker = .abandoned then page.openAll completion chain
        else (page.openAll completion chain).openFrame marker).markers = _
      by_cases abandoned : completion marker = .abandoned
      · rw [if_pos abandoned, ih, List.filter_cons_of_neg (by simp [abandoned])]
      · rw [if_neg abandoned, markers_openFrame, ih, List.filter_cons_of_pos (by simp [abandoned]),
          List.cons_append]

theorem act_finish {page next : Page} (closed : page.act completion .finish = some next) :
    ∃ marker outside frames, page.frames = ⟨marker, outside⟩ :: frames ∧
      next = { page with
        items := outside ++ [.made marker (completion marker).shape.1 (completion marker).shape.2
          (page.items.map Item.bare)]
        frames } := by
  unfold act at closed
  dsimp only at closed
  split at closed
  · contradiction
  · rename_i frame frames found
    rw [close, found] at closed
    exact ⟨frame.marker, frame.outside, frames, found, (Option.some.inj closed).symm⟩

theorem act_token {page next : Page} (passed : page.act completion .token = some next) :
    ∃ token rest, page.rest = token :: rest ∧ next = { page with rest }.add (.passed token) := by
  unfold act advance at passed
  cases left : page.rest with
  | nil => simp [left] at passed
  | cons token rest => exact ⟨token, rest, rfl, by simpa [left] using passed.symm⟩

/-- Which frames are open after an act. -/
theorem markers_act {page next : Page} {act : Act} (drawn : page.act completion act = some next) :
    (act ≠ .finish ∧ next.markers =
      act.chain.filter (completion · ≠ .abandoned) ++ page.markers) ∨
    (act = .finish ∧ ∃ marker, page.markers = marker :: next.markers) := by
  cases act with
  | opening marker wrappers =>
      cases drawn
      exact .inl ⟨nofun, markers_openAll _ _⟩
  | wrapper marker =>
      cases drawn
      exact .inl ⟨nofun, rfl⟩
  | finish =>
      obtain ⟨marker, outside, frames, found, rfl⟩ := act_finish drawn
      exact .inr ⟨rfl, marker, by rw [markers, found]; rfl⟩
  | token =>
      obtain ⟨token, rest, -, rfl⟩ := act_token drawn
      exact .inl ⟨nofun, rfl⟩
  | missing message =>
      cases drawn
      exact .inl ⟨nofun, rfl⟩

/-- What is open was open before, or has been opened since. -/
theorem mem_markers_act {page next : Page} {act : Act} (drawn : page.act completion act = some next)
    {marker : Nat} (mem : marker ∈ next.markers) :
    marker ∈ act.chain ∧ completion marker ≠ .abandoned ∨ marker ∈ page.markers := by
  rcases markers_act drawn with ⟨-, same⟩ | ⟨-, closed, same⟩
  · rw [same, List.mem_append, List.mem_filter] at mem
    exact mem.imp_left fun ⟨begun, kept⟩ => ⟨begun, by simpa using kept⟩
  · rw [same]
    exact .inr (List.mem_cons_of_mem _ mem)

theorem mem_markers_draw {acts : List Act} {page result : Page}
    (drawn : draw completion acts page = some result) {marker : Nat}
    (mem : marker ∈ result.markers) :
    marker ∈ Act.opened acts ∧ completion marker ≠ .abandoned ∨ marker ∈ page.markers := by
  induction acts generalizing page with
  | nil =>
      cases drawn
      exact .inr mem
  | cons act acts ih =>
      obtain ⟨next, first, rest⟩ := Option.bind_eq_some_iff.1 drawn
      rw [Act.opened_cons, List.mem_append]
      rcases ih rest with ⟨later, kept⟩ | before
      · exact .inl ⟨.inr later, kept⟩
      · exact (mem_markers_act first before).imp_left fun ⟨begun, kept⟩ => ⟨.inl begun, kept⟩

/-- If nothing is opened twice, this stays so. -/
theorem nodup_act {acts : List Act} {page next : Page} {act : Act}
    (drawn : page.act completion act = some next)
    (nodup : (Act.opened (act :: acts) ++ page.markers).Nodup) :
    (Act.opened acts ++ next.markers).Nodup := by
  rcases markers_act drawn with ⟨-, same⟩ | ⟨rfl, closed, same⟩
  · rw [same]
    rw [Act.opened_cons, List.append_assoc] at nodup
    have moved : (Act.opened acts ++ (act.chain ++ page.markers)).Nodup :=
      (List.perm_append_comm_assoc _ _ _).nodup_iff.1 nodup
    exact moved.sublist ((List.Sublist.refl _).append
      (List.filter_sublist.append (List.Sublist.refl _)))
  · rw [same] at nodup
    exact nodup.sublist ((List.Sublist.refl _).append (List.sublist_cons_self _ _))

/-- What is closed is not open in the end, because nothing is opened twice. -/
theorem not_mem_of_closed {acts : List Act} {page next result : Page} {marker : Nat}
    (closed : page.markers = marker :: next.markers)
    (rest : draw completion acts next = some result)
    (nodup : (Act.opened acts ++ page.markers).Nodup) : marker ∉ result.markers := by
  intro mem
  rw [closed] at nodup
  obtain ⟨-, distinct, apart⟩ := List.nodup_append.1 nodup
  rcases mem_markers_draw rest mem with ⟨later, -⟩ | before
  · exact apart _ later _ List.mem_cons_self rfl
  · exact (List.nodup_cons.1 distinct).1 before

/-- What a marker that is open in the end has turned out to be makes no difference, as long as it is
not abandoned; nor does what other markers have turned out to be that do not occur. -/
theorem draw_congr {completion' : Nat → Completion} {acts : List Act} {page result : Page}
    (drawn : draw completion acts page = some result)
    (nodup : (Act.opened acts ++ page.markers).Nodup)
    (abandoned : ∀ marker ∈ Act.opened acts,
      (completion' marker = .abandoned ↔ completion marker = .abandoned))
    (same : ∀ marker ∈ Act.opened acts ++ page.markers, marker ∉ result.markers →
      completion' marker = completion marker) :
    draw completion' acts page = some result := by
  induction acts generalizing page with
  | nil => exact drawn
  | cons act acts ih =>
      obtain ⟨next, first, rest⟩ := Option.bind_eq_some_iff.1 drawn
      have first' : page.act completion' act = some next := by
        cases act with
        | opening marker wrappers =>
            rw [← first]
            have chain : ∀ marker' ∈ marker :: wrappers, marker' ∈ Act.opened
                (.opening marker wrappers :: acts) := fun _ mem => List.mem_append_left _ mem
            refine congrArg some ?_
            generalize marker :: wrappers = all at chain
            induction all with
            | nil => rfl
            | cons marker all ih =>
                obtain ⟨here, chain⟩ := List.forall_mem_cons.1 chain
                change (if _ then openAll _ _ _ else (openAll _ _ _).openFrame _) =
                  if _ then openAll _ _ _ else (openAll _ _ _).openFrame _
                rw [ih chain]
                simp only [abandoned marker here]
        | wrapper | token | missing => exact first
        | finish =>
            obtain ⟨marker, outside, frames, found, rfl⟩ := act_finish first
            have closed : page.markers = marker :: frames.map Opened.marker := by
              rw [markers, found]
              rfl
            have among : marker ∈ page.markers := by
              rw [closed]
              exact List.mem_cons_self
            have gone := not_mem_of_closed closed rest nodup
            have shape := same marker (List.mem_append_right _ among) gone
            rw [← first]
            unfold Page.act
            rw [found]
            dsimp only
            rw [shape]
      rw [draw_cons, first']
      refine ih rest (nodup_act first nodup) ?_ ?_
      · exact fun marker mem => abandoned marker (List.mem_append_right _ mem)
      · intro marker mem gone
        refine same marker ?_ gone
        rw [Act.opened_cons, List.append_assoc]
        rcases List.mem_append.1 mem with mem | mem
        · exact List.mem_append_right _ (List.mem_append_left _ mem)
        · rcases mem_markers_act first mem with ⟨begun, -⟩ | before
          · exact List.mem_append_left _ begun
          · exact List.mem_append_right _ (List.mem_append_right _ before)

/-- Wrappers that were abandoned may be left out. -/
theorem draw_restrict {marker : Nat} {acts : List Act}
    (abandoned : ∀ other ∈ Act.opened acts, marker ≤ other → completion other = .abandoned)
    (page : Page) : draw completion (acts.map (Act.restrict marker)) page =
      draw completion acts page := by
  induction acts generalizing page with
  | nil => rfl
  | cons act acts ih =>
      have same : page.act completion (act.restrict marker) = page.act completion act := by
        cases act with
        | opening first wrappers =>
            refine congrArg some ?_
            have chain : ∀ other ∈ wrappers, marker ≤ other → completion other = .abandoned :=
              fun other mem => abandoned other (List.mem_append_left _ (List.mem_cons_of_mem _ mem))
            have inner : openAll completion (wrappers.filter (· < marker)) page =
                openAll completion wrappers page := by
              clear ih abandoned
              induction wrappers with
              | nil => rfl
              | cons wrapper wrappers ih =>
                  obtain ⟨here, chain⟩ := List.forall_mem_cons.1 chain
                  have ih := ih chain
                  by_cases earlier : wrapper < marker
                  · rw [List.filter_cons_of_pos (by simpa using earlier)]
                    change (if _ then openAll _ _ _ else (openAll _ _ _).openFrame _) =
                      if _ then openAll _ _ _ else (openAll _ _ _).openFrame _
                    rw [ih]
                  · rw [List.filter_cons_of_neg (by simpa using earlier), ih]
                    change _ = if _ then openAll _ _ _ else (openAll _ _ _).openFrame _
                    rw [if_pos (here (Nat.not_lt.1 earlier))]
            change (if _ then openAll _ _ _ else (openAll _ _ _).openFrame _) =
              if _ then openAll _ _ _ else (openAll _ _ _).openFrame _
            rw [inner]
        | wrapper | finish | token | missing => rfl
      rw [List.map_cons, draw_cons, draw_cons, same]
      cases page.act completion act with
      | none => rfl
      | some next => exact ih (fun other mem => abandoned other (List.mem_append_right _ mem)) next

end Draw

/-! ## Abandoning a marker -/

/-- What stands in the innermost frame and around it, without a frame that may be among those. -/
def without (marker : Nat) : List Item → List Opened → List Item × List Opened
  | items, [] => (items, [])
  | items, ⟨opened, outside⟩ :: frames =>
    if opened = marker then (outside ++ items, frames)
    else
      let (outside, frames) := without marker outside frames
      (items, ⟨opened, outside⟩ :: frames)

/-- The page as if a marker had never been made. -/
def forget (marker : Nat) (page : Page) : Page :=
  let (items, frames) := without marker page.items page.frames
  { page with items, frames }

theorem without_append (marker : Nat) (items more : List Item) (frames : List Opened) :
    without marker (items ++ more) frames =
      ((without marker items frames).1 ++ more, (without marker items frames).2) := by
  cases frames with
  | nil => rfl
  | cons frame frames =>
      unfold without
      by_cases same : frame.marker = marker
      · simp [same]
      · simp [same]

theorem forget_add (marker : Nat) (page : Page) (item : Item) :
    (page.add item).forget marker = (page.forget marker).add item := by
  simp only [forget, add, without_append]

theorem forget_of_not_mem {marker : Nat} {page : Page} (notOpen : marker ∉ page.markers) :
    page.forget marker = page := by
  have same (items : List Item) (frames : List Opened)
      (notOpen : marker ∉ frames.map Opened.marker) :
      without marker items frames = (items, frames) := by
    induction frames generalizing items with
    | nil => rfl
    | cons frame frames ih =>
        rw [List.map_cons, List.mem_cons, not_or] at notOpen
        rw [without, if_neg (Ne.symm notOpen.1), ih _ notOpen.2]
  rw [forget, same _ _ notOpen]

theorem forget_openFrame_self {marker : Nat} (page : Page) :
    (page.openFrame marker).forget marker = page := by
  simp [forget, openFrame, without]

theorem forget_openFrame_of_ne {marker other : Nat} (ne : other ≠ marker) (page : Page) :
    (page.openFrame other).forget marker = (page.forget marker).openFrame other := by
  simp [forget, openFrame, without, ne]

theorem splice_eq_forget {marker : Nat} {page : Page} (innermost : page.markers.head? = some marker) :
    page.splice = some (page.forget marker) := by
  unfold markers at innermost
  unfold splice forget
  cases found : page.frames with
  | nil => simp [found] at innermost
  | cons frame frames =>
      rw [found] at innermost
      have same : frame.marker = marker := by simpa using innermost
      simp [without, same]

section Abandon

variable {completion : Nat → Completion} {marker : Nat}

theorem forget_openAll (chain : List Nat) (page : Page)
    (kept : marker ∈ chain → completion marker ≠ .abandoned)
    (nodup : (chain ++ page.markers).Nodup) :
    (page.openAll completion chain).forget marker =
      (page.forget marker).openAll (Function.update completion marker .abandoned) chain := by
  induction chain with
  | nil => rfl
  | cons first chain ih =>
      rw [List.cons_append] at nodup
      obtain ⟨fresh, nodup⟩ := List.nodup_cons.1 nodup
      have ih := ih (fun mem => kept (List.mem_cons_of_mem _ mem)) nodup
      change (if _ then openAll _ _ _ else (openAll _ _ _).openFrame _).forget marker =
        if _ then openAll _ _ _ else (openAll _ _ _).openFrame _
      by_cases same : first = marker
      · subst same
        have notOpen : first ∉ (page.openAll completion chain).markers := by
          rw [markers_openAll, List.mem_append, not_or]
          rw [List.mem_append, not_or] at fresh
          exact ⟨fun mem => fresh.1 (List.mem_of_mem_filter mem), fresh.2⟩
        rw [if_neg (kept List.mem_cons_self), Function.update_self, if_pos rfl,
          forget_openFrame_self, ← ih, forget_of_not_mem notOpen]
      · rw [Function.update_of_ne same]
        by_cases abandoned : completion first = .abandoned
        · rw [if_pos abandoned, if_pos abandoned, ih]
        · rw [if_neg abandoned, if_neg abandoned, forget_openFrame_of_ne same, ih]

/-- Without a marker that is open in the end, the acts draw what they draw with it, but for its
frame. -/
theorem draw_abandon {acts : List Act} {page result : Page}
    (drawn : draw completion acts page = some result)
    (nodup : (Act.opened acts ++ page.markers).Nodup) (still : marker ∈ result.markers) :
    draw (Function.update completion marker .abandoned) acts (page.forget marker) =
      some (result.forget marker) := by
  induction acts generalizing page with
  | nil =>
      cases drawn
      rfl
  | cons act acts ih =>
      obtain ⟨next, first, rest⟩ := Option.bind_eq_some_iff.1 drawn
      have nodup' := nodup_act first nodup
      suffices same : (page.forget marker).act (Function.update completion marker .abandoned) act =
          some (next.forget marker) by
        rw [draw_cons, same]
        exact ih rest nodup'
      cases act with
      | opening begun wrappers =>
          cases first
          have chain : ((begun :: wrappers) ++ page.markers).Nodup :=
            nodup.sublist ((List.sublist_append_left _ _).append (List.Sublist.refl _))
          refine congrArg some (forget_openAll _ _ (fun mem => ?_) chain).symm
          rcases mem_markers_draw rest still with ⟨-, kept⟩ | before
          · exact kept
          · rw [markers_openAll] at before
            rcases List.mem_append.1 before with mem' | mem'
            · simpa using (List.mem_filter.1 mem').2
            · exact absurd rfl ((List.nodup_append.1 chain).2.2 _ mem _ mem')
      | wrapper | missing =>
          cases first
          exact congrArg some (by simp only [forget_add])
      | token =>
          obtain ⟨token, left, found, rfl⟩ := act_token first
          rw [forget_add]
          simp [forget, Page.act, advance, found]
      | finish =>
          obtain ⟨closed, outside, frames, found, rfl⟩ := act_finish first
          have top : page.markers = closed :: frames.map Opened.marker := by
            rw [markers, found]
            rfl
          have ne : closed ≠ marker := by
            rintro rfl
            exact not_mem_of_closed top rest nodup still
          simp only [forget, found, without, if_neg ne, Page.act, close, without_append,
            Function.update_of_ne ne]

end Abandon

/-! ## Putting a frame around -/

/-- What stands in some frames, put into other frames behind what stands there. -/
def behind (outside : List Item) (outer : List Opened) :
    List Item → List Opened → List Item × List Opened
  | items, [] => (outside ++ items, outer)
  | items, ⟨marker, around⟩ :: inner =>
    let (around, frames) := behind outside outer around inner
    (items, ⟨marker, around⟩ :: frames)

/-- A page put into other frames behind what stands there. -/
def above (outside : List Item) (outer : List Opened) (page : Page) : Page :=
  let (items, frames) := behind outside outer page.items page.frames
  { page with items, frames }

section Above

variable {completion : Nat → Completion} (outside : List Item) (outer : List Opened)

theorem behind_append (items more : List Item) (frames : List Opened) :
    behind outside outer (items ++ more) frames =
      ((behind outside outer items frames).1 ++ more,
        (behind outside outer items frames).2) := by
  cases frames with
  | nil => simp [behind]
  | cons frame frames => rfl

theorem above_of_nil {page : Page} (none : page.frames = []) :
    page.above outside outer = ⟨page.rest, outside ++ page.items, outer⟩ := by
  simp [above, none, behind]

theorem above_add (page : Page) (item : Item) :
    (page.add item).above outside outer = (page.above outside outer).add item := by
  simp only [above, add, behind_append]

theorem above_openFrame (marker : Nat) (page : Page) :
    (page.openFrame marker).above outside outer =
      (page.above outside outer).openFrame marker := rfl

theorem above_openAll (chain : List Nat) (page : Page) :
    (page.openAll completion chain).above outside outer =
      (page.above outside outer).openAll completion chain := by
  induction chain with
  | nil => rfl
  | cons marker chain ih =>
      change (if _ then openAll _ _ _ else (openAll _ _ _).openFrame _).above _ _ =
        if _ then openAll _ _ _ else (openAll _ _ _).openFrame _
      split
      · exact ih
      · rw [above_openFrame, ih]

theorem act_above {page next : Page} {act : Act} (drawn : page.act completion act = some next) :
    (page.above outside outer).act completion act = some (next.above outside outer) := by
  cases act with
  | opening marker wrappers =>
      cases drawn
      exact congrArg some (above_openAll outside outer _ page).symm
  | wrapper marker =>
      cases drawn
      rfl
  | finish =>
      obtain ⟨marker, around, frames, found, rfl⟩ := act_finish drawn
      simp only [above, found, behind, Page.act, close, behind_append]
  | token =>
      obtain ⟨token, rest, found, rfl⟩ := act_token drawn
      rw [above_add]
      simp [above, Page.act, advance, found]
  | missing message =>
      cases drawn
      exact congrArg some (above_add outside outer page _).symm

theorem draw_above {acts : List Act} {page result : Page}
    (drawn : draw completion acts page = some result) :
    draw completion acts (page.above outside outer) = some (result.above outside outer) := by
  induction acts generalizing page with
  | nil =>
      cases drawn
      rfl
  | cons act acts ih =>
      obtain ⟨next, first, rest⟩ := Option.bind_eq_some_iff.1 drawn
      rw [draw_cons, act_above outside outer first]
      exact ih rest

/-- If some acts can be done in other frames, either they can be done without those, or at some time
a finish closes one of those. -/
theorem draw_above_cases {outside : List Item} {outer : List Opened} {acts : List Act}
    {page result : Page}
    (drawn : draw completion acts (page.above outside outer) = some result) :
    (∃ inner, draw completion acts page = some inner ∧ result = inner.above outside outer) ∨
      ∃ before after last, acts = before ++ .finish :: after ∧
        draw completion before page = some last ∧ last.frames = [] ∧
        draw completion (.finish :: after) (last.above outside outer) = some result := by
  induction acts generalizing page with
  | nil =>
      cases drawn
      exact .inl ⟨page, rfl, rfl⟩
  | cons act acts ih =>
      cases first : page.act completion act with
      | some next =>
          rw [draw_cons, act_above outside outer first, Option.bind_some] at drawn
          rcases ih drawn with ⟨inner, rest, same⟩ | ⟨before, after, last, rfl, rest, bare, closes⟩
          · exact .inl ⟨inner, by rw [draw_cons, first]; exact rest, same⟩
          · exact .inr ⟨act :: before, after, last, rfl, by rw [draw_cons, first]; exact rest, bare,
              closes⟩
      | none =>
          cases act with
          | opening | wrapper | missing => contradiction
          | finish =>
              refine .inr ⟨[], acts, page, rfl, rfl, ?_, drawn⟩
              cases found : page.frames with
              | nil => rfl
              | cons frame frames => simp [Page.act, found, close] at first
          | token =>
              have empty : page.rest = [] := by
                simpa [Page.act] using first
              rw [draw_cons] at drawn
              simp [Page.act, above, empty] at drawn

end Above

section Wrap

variable {completion : Nat → Completion} {made : Nat}

/-- Is the node that was made with a marker among some items? -/
def Among (made : Nat) (items : List Item) : Prop :=
  ∃ item ∈ items, item.isMadeWith made = true

/-- Does the node that was made with a marker stand in some frame, but in no other node? -/
def Holds (made : Nat) (page : Page) : Prop :=
  Among made page.items ∨ ∃ frame ∈ page.frames, Among made frame.outside

theorem among_append {s t : List Item} :
    Among made (s ++ t) ↔ Among made s ∨ Among made t := by
  unfold Among
  simp only [List.mem_append, or_and_right, exists_or]

theorem among_singleton {item : Item} : Among made [item] ↔ item.isMadeWith made = true := by
  simp [Among]

theorem holds_openAll {chain : List Nat} {page : Page}
    (holds : (page.openAll completion chain).Holds made) : page.Holds made := by
  induction chain with
  | nil => exact holds
  | cons marker chain ih =>
      refine ih ?_
      change Holds made (if _ then openAll _ _ _ else (openAll _ _ _).openFrame _) at holds
      split at holds
      · exact holds
      · rcases holds with ⟨item, mem, -⟩ | ⟨frame, mem, among⟩
        · simp [openFrame] at mem
        · rcases List.mem_cons.1 mem with rfl | mem
          · exact .inl among
          · exact .inr ⟨frame, mem, among⟩

theorem holds_add {page : Page} {item : Item} (other : item.isMadeWith made = false)
    (holds : (page.add item).Holds made) : page.Holds made := by
  refine holds.imp_left fun among => (among_append.1 among).resolve_right fun here => ?_
  rw [among_singleton, other] at here
  contradiction

theorem holds_act {page next : Page} {act : Act} (drawn : page.act completion act = some next)
    (notOpen : made ∉ page.markers) (holds : next.Holds made) : page.Holds made := by
  cases act with
  | opening marker wrappers =>
      cases drawn
      exact holds_openAll holds
  | wrapper marker =>
      cases drawn
      exact holds
  | finish =>
      obtain ⟨marker, outside, frames, found, rfl⟩ := act_finish drawn
      rcases holds with among | ⟨frame, mem, among⟩
      · rcases among_append.1 among with among | among
        · exact .inr ⟨⟨marker, outside⟩, by rw [found]; exact List.mem_cons_self, among⟩
        · have same : marker = made := by simpa [among_singleton, Item.isMadeWith] using among
          refine absurd ?_ notOpen
          rw [markers, found, ← same]
          exact List.mem_cons_self
      · exact .inr ⟨frame, by rw [found]; exact List.mem_cons_of_mem _ mem, among⟩
  | token =>
      obtain ⟨token, rest, found, rfl⟩ := act_token drawn
      have around : Holds made (Page.add (.passed token) { page with rest }) := holds
      exact holds_add rfl around
  | missing message =>
      cases drawn
      exact holds_add rfl holds

/-- A node only stands on a page if its marker has been opened. -/
theorem holds_draw {acts : List Act} {page result : Page}
    (drawn : draw completion acts page = some result) (notOpen : made ∉ page.markers)
    (notOpened : made ∉ Act.opened acts) (holds : result.Holds made) : page.Holds made := by
  induction acts generalizing page with
  | nil =>
      cases drawn
      exact holds
  | cons act acts ih =>
      obtain ⟨next, first, rest⟩ := Option.bind_eq_some_iff.1 drawn
      rw [Act.opened_cons, List.mem_append, not_or] at notOpened
      refine holds_act first notOpen (ih rest (fun mem => ?_) notOpened.2)
      rcases mem_markers_act first mem with ⟨begun, -⟩ | before
      · exact notOpened.1 begun
      · exact notOpen before

theorem items_above (outside : List Item) (outer : List Opened) {page : Page}
    (some : page.frames ≠ []) : (page.above outside outer).items = page.items := by
  unfold above
  cases found : page.frames with
  | nil => exact absurd found some
  | cons frame frames => rfl

/-- Acts that close nothing but what they open leave what stands on the page already. -/
theorem draw_closed {outside : List Item} {acts : List Act} {rest : List Token} {result : Page}
    (drawn : draw completion acts ⟨rest, outside, []⟩ = some result) :
    ∃ inner, draw completion acts ⟨rest, [], []⟩ = some inner ∧
      result = inner.above outside [] := by
  have start : (⟨rest, outside, []⟩ : Page) = above outside [] ⟨rest, [], []⟩ := by
    simp [above, behind]
  rw [start] at drawn
  rcases draw_above_cases drawn with inner | ⟨before, after, last, -, -, none, closes⟩
  · exact inner
  · rw [draw_cons, above_of_nil _ _ none] at closes
    contradiction

/-- If a node stands in the innermost frame in the end, and its marker was the first to be opened in
that frame since some time, then it is the first that stands there since that time. -/
theorem draw_made_inside {acts : List Act} {page result : Page}
    (drawn : draw completion acts (page.above [] [⟨made, []⟩]) = some result)
    (away : ¬ page.Holds made) (notOpen : made ∉ page.markers) (notOpened : made ∉ Act.opened acts)
    (here : Among made result.items) : ∃ item more, item.isMadeWith made = true ∧
      result = ⟨result.rest, item :: more, []⟩ := by
  rcases draw_above_cases drawn with ⟨inner, inside, rfl⟩ |
    ⟨before, after, last, rfl, -, none, closes⟩
  · -- The marker is open still, so the node cannot stand anywhere.
    have kept : ¬ inner.Holds made := fun holds => away (holds_draw inside notOpen notOpened holds)
    refine absurd here ?_
    cases found : inner.frames with
    | nil =>
        rw [above_of_nil _ _ found]
        exact fun among => kept (.inl among)
    | cons frame frames =>
        rw [items_above _ _ (by simp [found])]
        exact fun among => kept (.inl among)
  · -- The marker is closed by the finish, and what comes then comes after the node.
    rw [draw_cons, above_of_nil _ _ none] at closes
    obtain ⟨inner, inside, rfl⟩ := draw_closed closes
    have notAfter : made ∉ Act.opened after := by
      rw [Act.opened_append, List.mem_append, not_or] at notOpened
      exact notOpened.2
    have kept : ¬ inner.Holds made := by
      intro holds
      rcases holds_draw inside (by simp [markers]) notAfter holds with ⟨item, mem, -⟩ | ⟨_, mem, -⟩
      · contradiction
      · contradiction
    cases found : inner.frames with
    | nil =>
        rw [above_of_nil _ _ found]
        exact ⟨_, inner.items, by simp [Item.isMadeWith], rfl⟩
    | cons frame frames =>
        rw [items_above _ _ (by simp [found])] at here
        exact absurd (.inl here) kept

/-- The same when the frame is among others: then that frame is the innermost again in the end. -/
theorem draw_made {outside : List Item} {outer : List Opened} {acts : List Act} {page result : Page}
    (drawn : draw completion acts ((page.above [] [⟨made, []⟩]).above outside outer) = some result)
    (away : ¬ page.Holds made) (notOpen : made ∉ page.markers) (notOpened : made ∉ Act.opened acts)
    (awayOutside : ¬ Holds made ⟨[], outside, outer⟩) (notOuter : made ∉ outer.map Opened.marker)
    (here : Among made result.items) :
    ∃ rest item more, item.isMadeWith made = true ∧
      draw completion acts (page.above [] [⟨made, []⟩]) = some ⟨rest, item :: more, []⟩ ∧
      result = ⟨rest, outside ++ item :: more, outer⟩ := by
  rcases draw_above_cases drawn with ⟨inner, inside, rfl⟩ |
    ⟨before, after, last, rfl, -, none, closes⟩
  · have there : Among made inner.items := by
      cases found : inner.frames with
      | nil =>
          rw [above_of_nil _ _ found] at here
          exact (among_append.1 here).resolve_left fun among => awayOutside (.inl among)
      | cons frame frames =>
          rw [items_above _ _ (by simp [found])] at here
          exact here
    obtain ⟨item, more, is, same⟩ := draw_made_inside inside away notOpen notOpened there
    rw [same] at inside ⊢
    exact ⟨inner.rest, item, more, is, inside, above_of_nil _ _ rfl⟩
  · -- The frame is closed, and the node stands in the node that it becomes.
    obtain ⟨next, first, rest⟩ := Option.bind_eq_some_iff.1 closes
    rw [above_of_nil _ _ none] at first
    obtain ⟨marker, around, frames, found, rfl⟩ := act_finish first
    change outer = _ at found
    subst found
    rw [List.map_cons, List.mem_cons, not_or] at notOuter
    rw [Act.opened_append, List.mem_append, not_or] at notOpened
    refine absurd (.inl here) fun holds : Holds made result => ?_
    have notLater : made ∉ Act.opened after := notOpened.2
    rcases holds_draw rest notOuter.2 notLater holds with among | ⟨frame, mem, among⟩
    · rcases among_append.1 among with among | among
      · exact awayOutside (.inr ⟨_, List.mem_cons_self, among⟩)
      · rw [among_singleton] at among
        simp only [Item.isMadeWith, beq_iff_eq] at among
        exact notOuter.1 among.symm
    · exact awayOutside (.inr ⟨frame, List.mem_cons_of_mem _ mem, among⟩)

/-- To put a wrapper around a node that stands in the innermost frame is to open a frame around it and
everything after it. -/
theorem draw_wrap {before after : List Act} {first wrapper : Nat} {wrappers : List Nat}
    {page start : Page} (bare : start.frames = [] ∧ start.items = [])
    (drawn : draw completion (before ++ .opening first wrappers :: after) start = some page)
    (nodup : (Act.opened (before ++ .opening first wrappers :: after)).Nodup)
    (last : (first :: wrappers).getLast? = some made) (kept : completion made ≠ .abandoned)
    (new : completion wrapper ≠ .abandoned) (here : Among made page.items) :
    ∃ wrapped, page.wrap made wrapper = some wrapped ∧
      draw completion (before ++ .opening first (wrappers ++ [wrapper]) :: after) start =
        some wrapped := by
  obtain ⟨inside, chain⟩ := List.getLast?_eq_some_iff.1 last
  rw [draw_append] at drawn
  obtain ⟨around, earlier, later⟩ := Option.bind_eq_some_iff.1 drawn
  have opens (page : Page) (chain : List Nat) : draw completion
      (.opening first chain :: after) page =
        draw completion after (page.openAll completion (first :: chain)) := rfl
  rw [opens, chain] at later
  simp only [Act.opened_append, Act.opened_cons, Act.chain, chain] at nodup
  obtain ⟨-, nodup, apart⟩ := List.nodup_append.1 nodup
  obtain ⟨nodup, -, apart'⟩ := List.nodup_append.1 nodup
  have among : made ∈ inside ++ [made] := List.mem_append_right _ (List.mem_singleton_self _)
  have notEarlier : made ∉ Act.opened before := fun mem =>
    apart made mem made (List.mem_append_left _ among) rfl
  have notLater : made ∉ Act.opened after := fun mem => apart' made among made mem rfl
  have notInside : made ∉ inside := fun mem =>
    (List.nodup_append.1 nodup).2.2 made mem made (List.mem_singleton_self _) rfl
  have notOpen : made ∉ around.markers := by
    intro mem
    rcases mem_markers_draw earlier mem with ⟨begun, -⟩ | before
    · exact notEarlier begun
    · simp [markers, bare.1] at before
  have away : ¬ around.Holds made := by
    intro holds
    rcases holds_draw earlier (by simp [markers, bare.1]) notEarlier holds with
      ⟨item, mem, -⟩ | ⟨frame, mem, -⟩
    · simp [bare.2] at mem
    · simp [bare.1] at mem
  -- The chain opens the marker of the node first, and what is inside of it on top.
  let base := openAll completion inside ⟨around.rest, [], []⟩
  have opened (outside : List Item) (outer : List Opened) :
      openAll completion (inside ++ [made]) ⟨around.rest, outside, outer⟩ =
        (base.above [] [⟨made, []⟩]).above outside outer := by
    rw [openAll, List.foldr_append]
    change openAll completion inside (if _ then _ else _) = _
    rw [if_neg kept, above_openAll, above_openAll]
    simp [openFrame, above, behind]
  have baseAway : ¬ base.Holds made := by
    intro holds
    rcases holds_openAll holds with ⟨item, mem, -⟩ | ⟨frame, mem, -⟩ <;> contradiction
  have baseNotOpen : made ∉ base.markers := by
    rw [markers_openAll]
    intro mem
    rcases List.mem_append.1 mem with mem | mem
    · exact notInside (List.mem_of_mem_filter mem)
    · contradiction
  have later' : draw completion after ((base.above [] [⟨made, []⟩]).above around.items
      around.frames) = some page := by
    rw [← opened]
    exact later
  obtain ⟨rest, item, more, is, local', rfl⟩ :=
    draw_made later' baseAway baseNotOpen notLater away notOpen here
  refine ⟨⟨rest, item :: more, ⟨wrapper, around.items⟩ :: around.frames⟩, ?_, ?_⟩
  · have others : ∀ other ∈ around.items, (!other.isMadeWith made) = true := by
      intro other mem
      cases found : other.isMadeWith made with
      | true => exact absurd (.inl ⟨other, mem, found⟩) away
      | false => rfl
    unfold wrap
    dsimp only
    rw [List.dropWhile_append_of_pos others, List.takeWhile_append_of_pos others]
    simp [is]
  · rw [draw_append, earlier, Option.bind_some, opens, ← List.cons_append, chain]
    have outermost : openAll completion (inside ++ [made] ++ [wrapper]) around =
        openAll completion (inside ++ [made])
          ⟨around.rest, [], ⟨wrapper, around.items⟩ :: around.frames⟩ := by
      rw [openAll, List.foldr_append]
      change openAll completion (inside ++ [made]) (if _ then _ else _) = _
      rw [if_neg new]
      rfl
    rw [outermost, opened, draw_above _ _ local', above_of_nil _ _ rfl, List.nil_append]

end Wrap

end Page
end StarlarkSyntax
