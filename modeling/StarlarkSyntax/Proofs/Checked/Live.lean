import StarlarkSyntax.Proofs.Checked.Matches
/-!
# Marks that are alive

A mark may be completed while it is alive: while the event that it points at is still the beginning
that was made with it. The marks that are alive are nested, the newest first, and each of them begins
after all those that were made before it (`Live`). A rule only ever resolves the newest mark, and
taking back what was described since leaves the older ones alone. So every rule leaves the marks
alive that were there before it (`Mirrors`), and may be followed while any others wait.
-/

set_option autoImplicit false

namespace StarlarkSyntax

/-! ## Beginnings -/

namespace Event

@[simp] theorem isStart_complete (event : Event) (completion : Completion) :
    (event.complete completion).isStart = event.isStart := by
  cases event <;> rfl

@[simp] theorem isStart_withWrapper (event : Event) (wrapper? : Option Nat) :
    (event.withWrapper wrapper?).isStart = event.isStart := by
  cases event <;> rfl

end Event

namespace Builder

/-- Is there a beginning at an index? -/
def begins (builder : Builder) (index : Nat) : Bool :=
  builder.events[index]?.any Event.isStart

variable {builder : Builder} {index : Nat}

theorem lt_of_begins (begins : builder.begins index = true) : index < builder.events.size := by
  by_contra outside
  rw [Builder.begins, Array.getElem?_eq_none (Nat.not_lt.1 outside)] at begins
  contradiction

theorem begins_push (begins : builder.begins index = true) (event : Event) :
    (builder.push event).begins index = true := by
  have inside := lt_of_begins begins
  rw [Builder.begins, push, Array.getElem?_push, if_neg (Nat.ne_of_lt inside)]
  exact begins

theorem begins_mark (builder : Builder) : builder.mark.2.begins builder.events.size = true := by
  simp [mark, push, Builder.begins, Event.isStart]

/-- Changing events that stay what they are makes no difference. -/
theorem begins_modify (builder : Builder) (index position : Nat) {change : Event → Event}
    (same : ∀ event, (change event).isStart = event.isStart) :
    { builder with events := builder.events.modify position change }.begins index =
      builder.begins index := by
  simp only [Builder.begins, Array.getElem?_modify]
  split
  · cases builder.events[index]? with
    | none => rfl
    | some event => exact same event
  · rfl

theorem begins_complete (begins : builder.begins index = true) (position : Nat)
    (completion : Completion) : (builder.complete position completion).begins index = true :=
  begins_push
    ((begins_modify builder index position (Event.isStart_complete · completion)).trans begins) .finish

theorem begins_truncate {length : Nat} (begins : builder.begins index = true)
    (left : index < length) : (builder.truncate length).begins index = true := by
  rw [Builder.begins, getElem?_truncate, if_pos left]
  split
  · cases found : builder.events[index]? with
    | none => simp [Builder.begins, found] at begins
    | some event => simpa [Builder.begins, found] using begins
  · exact begins

theorem begins_drop {marker : Marker} (begins : builder.begins index = true)
    (earlier : index < marker.position) : (builder.drop marker).begins index = true := by
  unfold drop
  split
  · exact begins_truncate begins earlier
  · rw [Builder.begins, Array.getElem?_setIfInBounds_ne (Nat.ne_of_gt earlier)]
    exact begins

theorem begins_precede (begins : builder.mark.2.begins index = true) (completed : Completed) :
    (builder.precede completed).2.begins index = true :=
  (begins_modify builder.mark.2 index _ (Event.isStart_withWrapper · _)).trans begins

end Builder

namespace Watched

variable {watched : Watched} {mark : Mark}

theorem owns_iff : watched.owns mark = true ↔
    watched.stamps[mark.marker.position]? = some mark.birth ∧
      watched.parser.builder.begins mark.marker.position = true := by
  rw [owns, Bool.and_eq_true, beq_iff_eq]
  rfl

/-- A mark keeps its beginning in an operation that leaves a beginning there. -/
theorem owns_moved (owned : watched.owns mark = true) {parser : Parser}
    (begins : parser.builder.begins mark.marker.position = true) :
    (watched.moved parser).owns mark = true := by
  obtain ⟨stamp, -⟩ := owns_iff.1 owned
  obtain ⟨inside, -⟩ := List.getElem?_eq_some_iff.1 stamp
  have left := Builder.lt_of_begins begins
  refine owns_iff.2 ⟨?_, begins⟩
  rw [moved, List.getElem?_append_left (by rw [List.length_take]; omega),
    List.getElem?_take_of_lt left]
  exact stamp

theorem length_stamps_moved (parser : Parser) :
    (watched.moved parser).stamps.length = parser.builder.events.size := by
  simp only [moved, List.length_append, List.length_take, List.length_replicate]
  omega

/-- An operation owns the event that it adds behind the others. -/
theorem owns_new (stamped : watched.stamps.length = watched.parser.builder.events.size)
    {parser : Parser} {marker : Marker} (new : marker.position = watched.parser.builder.events.size)
    (begins : parser.builder.begins marker.position = true) :
    (watched.moved parser).owns ⟨marker, watched.clock⟩ = true := by
  have left := Builder.lt_of_begins begins
  have short : (watched.stamps.take parser.builder.events.size).length = marker.position := by
    rw [List.length_take]
    omega
  refine owns_iff.2 ⟨?_, begins⟩
  rw [moved, List.getElem?_append_right (Nat.le_of_eq short), short, Nat.sub_self,
    List.getElem?_replicate, if_pos (by omega)]

end Watched

namespace Checked


/-! ## States with live marks -/

/-- The marks are alive, newest first, in a state that may have come of `base`. Something is the case
where the rules stand. -/
structure Live (here : Scopes → Nat → Prop) (base : Parser) (depth : Nat) (marks : List Mark)
    (watched : Watched) : Prop where
  since : base.Since depth 0 watched.parser
  stands : here watched.parser.scopes watched.parser.strayIndents
  stamped : watched.stamps.length = watched.parser.builder.events.size
  owned : ∀ mark ∈ marks, watched.owns mark = true
  begun : ∀ mark ∈ marks, mark.marker.start ≤ mark.marker.position
  nested : marks.Pairwise fun newer older => older.marker.position < newer.marker.start

/-- The rules stand where they stand in a state. -/
def Stays (parser : Parser) (scopes : Scopes) (strayIndents : Nat) : Prop :=
  scopes = parser.scopes ∧ strayIndents = parser.strayIndents

/-- The rules may stand anywhere. -/
def Anywhere (_ : Scopes) (_ : Nat) : Prop := True

/-- The checked rule has given what the rule gives, and the marks are still alive. -/
def Agrees {α : Type} (here : Scopes → Nat → Prop) (base : Parser) (depth : Nat) (marks : List Mark)
    (given answer : α) (next : Watched) : Prop :=
  given = answer ∧ Live here base depth marks next

/-- The checked rule does what the rule does, and leaves the marks alive that were there. The rules
stand after it where they stood before. -/
def Mirrors {α : Type} (here : Scopes → Nat → Prop) (depth : Nat) (checked : CheckedM α)
    (rule : ParseM α) : Prop :=
  ∀ (base : Parser) (marks : List Mark) (watched : Watched),
    Live here base depth marks watched →
      Matches checked rule watched (Agrees here base depth marks)

/-- The rule does not change where the rules stand. -/
def Calm {α : Type} (rule : ParseM α) : Prop :=
  ∀ parser answer next, rule parser = some (answer, next) →
    Stays parser next.scopes next.strayIndents

namespace Live

variable {here : Scopes → Nat → Prop} {base : Parser} {depth : Nat} {marks : List Mark}
  {mark : Mark} {watched : Watched}

theorem begins (live : Live here base depth marks watched) {mark : Mark} (mem : mark ∈ marks) :
    watched.parser.builder.begins mark.marker.position = true :=
  (Watched.owns_iff.1 (live.owned mark mem)).2

theorem position_lt (live : Live here base depth marks watched) {mark : Mark} (mem : mark ∈ marks) :
    mark.marker.position < watched.parser.builder.events.size :=
  Builder.lt_of_begins (live.begins mem)

theorem start_lt (live : Live here base depth (mark :: marks) watched) :
    mark.marker.start < watched.parser.builder.events.size :=
  Nat.lt_of_le_of_lt (live.begun mark List.mem_cons_self) (live.position_lt List.mem_cons_self)

/-- The older marks begin before the newest one. -/
theorem below (live : Live here base depth (mark :: marks) watched) {older : Mark}
    (mem : older ∈ marks) : older.marker.position < mark.marker.start :=
  (List.pairwise_cons.1 live.nested).1 older mem

/-- One more operation, by which some of the marks may be resolved. -/
theorem moved (live : Live here base depth marks watched) {kept : List Mark} {parser : Parser}
    (since : base.Since depth 0 parser) (stands : here parser.scopes parser.strayIndents)
    (sub : kept.Sublist marks)
    (begins : ∀ mark ∈ kept, parser.builder.begins mark.marker.position = true) :
    Live here base depth kept (watched.moved parser) where
  since := since
  stands := stands
  stamped := Watched.length_stamps_moved parser
  owned := fun mark mem => Watched.owns_moved (live.owned mark (sub.subset mem)) (begins mark mem)
  begun := fun mark mem => live.begun mark (sub.subset mem)
  nested := live.nested.sublist sub

/-- One more operation, by which a mark is made. -/
theorem marked (live : Live here base depth marks watched) {parser : Parser} {marker : Marker}
    (since : base.Since depth 0 parser) (stands : here parser.scopes parser.strayIndents)
    (begins : ∀ index, watched.parser.builder.begins index = true →
      parser.builder.begins index = true)
    (new : marker.position = watched.parser.builder.events.size)
    (begun : parser.builder.begins marker.position = true) (le : marker.start ≤ marker.position)
    (above : ∀ mark ∈ marks, mark.marker.position < marker.start) :
    Live here base depth (⟨marker, watched.clock⟩ :: marks) (watched.moved parser) := by
  have rest := live.moved since stands (List.Sublist.refl marks)
    fun mark mem => begins _ (live.begins mem)
  exact
    { rest with
      owned := List.forall_mem_cons.2 ⟨Watched.owns_new live.stamped new begun, rest.owned⟩
      begun := List.forall_mem_cons.2 ⟨le, rest.begun⟩
      nested := List.pairwise_cons.2 ⟨above, rest.nested⟩ }

/-- The older marks alone. -/
theorem tail (live : Live here base depth (mark :: marks) watched) :
    Live here base depth marks watched :=
  { live with
    owned := (List.forall_mem_cons.1 live.owned).2
    begun := (List.forall_mem_cons.1 live.begun).2
    nested := (List.pairwise_cons.1 live.nested).2 }

/-- What happens from now on comes of the present state. -/
theorem rebase (live : Live here base depth marks watched) :
    Live (Stays watched.parser) watched.parser depth marks watched :=
  { live with
    since := live.since.self.raise (Nat.zero_le _)
    stands := ⟨rfl, rfl⟩ }

/-- What comes of a state comes of what that state comes of. -/
theorem based (live : Live here base depth marks watched) {next : Watched}
    (later : Live (Stays watched.parser) watched.parser depth marks next) :
    Live here base depth marks next :=
  { later with
    since := live.since.trans later.since
    stands := by
      rw [later.stands.1, later.stands.2]
      exact live.stands }

end Live
end Checked
end StarlarkSyntax
