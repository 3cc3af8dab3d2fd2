import StarlarkSyntax.Proofs.Progress.Basic
import StarlarkSyntax.Grammar.Expression
/-!
# Expressions end

Every rule for expressions ends on every sequence of tokens, takes nothing back that was described
before it, and passes a token if it says that it found something. The rules are shown to do so at a
depth where the nested rules do (`Follows`), and `follows_nested` closes the cycle by an induction on
how many levels of nesting are left: at the limit `nest` passes tokens over instead of following a
rule, so the levels never run out.

Whether there is an expression is seen from its first token alone, whether or not it is a target.
`startsPrimary` and what follows it list those tokens, from the tightest rule to the loosest.
-/

set_option autoImplicit false

namespace StarlarkSyntax.Grammar

/-- Can a primary expression start with a token of this kind? -/
def startsPrimary : Kind → Bool
  | .identifier | .int | .float | .string | .bytes | .opening _ => true
  | _ => false

/-- Can an operand with or without a sign start with it? -/
def startsUnary (kind : Kind) : Bool :=
  signs.contains kind || startsPrimary kind

/-- Can a comparison start with it? -/
def startsComparison (kind : Kind) : Bool :=
  kind == .operator .star || startsUnary kind

/-- Can an operation start with it? -/
def startsOperation (kind : Kind) : Bool :=
  kind == .reserved .notWord || startsComparison kind

/-- Can a full expression start with it? -/
def startsTest (kind : Kind) : Bool :=
  kind == .reserved .lambdaWord || startsOperation kind

/-- Is it passed where a full expression is nested as deep as this? -/
def startsNested (depth : Nat) : Kind → Bool :=
  if depth < Builder.maxDepth then startsTest else skippable

/-- The nested rules end at a depth, and pass the token that they are followed at. -/
structure Follows (nested : Nested) (depth : Nat) : Prop where
  test : ∀ target, Leads depth (startsNested depth) (nested (.test target))
  exponent : ∀ target, Finds depth (nested (.exponent target))
  display : ∀ delimiter target,
    Passes depth (.opening delimiter) (nested (.display delimiter target))
  arguments : Passes depth lpar (nested .arguments)
  negation : ∀ target, Passes depth (.reserved .notWord) (nested (.negation target))
  signed : ∀ target, ∀ sign ∈ signs, Passes depth sign (nested (.signed target))

section Rules

variable {nested : Nested} {depth : Nat}

/-! ## Tuples -/

/-- The rounds after the first item of a tuple. -/
theorem keeps_moreItems {item : ParseM Bool} (finds : Finds depth item) :
    Keeps depth (repeatWhile do
      if !(← matches? .comma) then pure false
      else
        let place ← mark
        if ← item then
          drop place
          pure true
        else
          rollback place
          pure false) := by
  refine keeps_repeatWhile fun base floor parser since => ?_
  refine (finds_matches? .comma).bind since (fun parser since => ?_) fun _ since => .pure since
  refine (ends_mark since).bind fun place parser ⟨since, made, _⟩ => ?_
  refine finds.bind since (fun parser since => ?_) fun parser since => ?_
  · exact (ends_drop since made).bind fun _ _ since => .pure since.lower
  · exact (ends_rollback since made).bind fun _ _ ⟨since, _⟩ => .pure since.lower

theorem passes_tupleOf {item : ParseM Bool} {kind : Kind} (passes : Passes depth kind item)
    (finds : Finds depth item) : Passes depth kind (tupleOf item) := by
  intro base floor parser since seen
  refine (ends_mark since).bind fun tuple next ⟨since, made, _, _, view⟩ => ?_
  have seen := (congrFun view 0).trans seen
  refine (passes base floor next since seen).bind fun found parser since => ?_
  cases found with
  | false => exact (ends_drop since made).bind fun _ _ since => .pure since
  | true =>
      refine ends_isAt ?_
      split
      · exact (ends_drop since made).bind fun _ _ since => .pure since
      · refine (keeps_moreItems finds).bind since fun _ parser since => ?_
        exact (ends_done since made _).bind fun _ _ since => .pure since

theorem misses_tupleOf {item : ParseM Bool} {starts : Kind → Bool}
    (misses : Misses depth starts item) : Misses depth starts (tupleOf item) := by
  intro base floor parser since away
  refine (ends_mark since).bind fun tuple next ⟨since, made, _, _, view⟩ => ?_
  have away := (congrArg (Option.any starts) (congrFun view 0)).trans away
  refine (misses base floor next since away).bind ?_
  rintro _ parser ⟨rfl, since⟩
  exact (ends_drop since made).bind fun _ _ since => .pure ⟨rfl, since⟩

theorem leads_tupleOf {item : ParseM Bool} {starts : Kind → Bool}
    (leads : Leads depth starts item) : Leads depth starts (tupleOf item) :=
  ⟨fun kind start => passes_tupleOf (leads.passes kind start) leads.finds,
    misses_tupleOf leads.misses⟩

theorem leads_tuple (follows : Follows nested depth) (target : Bool) :
    Leads depth (startsNested depth) (tuple nested target) :=
  leads_tupleOf (follows.test target)

theorem keeps_requireTest (follows : Follows nested depth) : Keeps depth (requireTest nested) :=
  keeps_require _ (follows.test false).finds.keeps

/-! ## Parameters -/

theorem finds_parameter (follows : Follows nested depth) (stop : Kind) :
    Finds depth (parameter nested stop) := by
  intro base floor parser since
  refine (ends_mark since).bind fun parameter parser ⟨since, made, _⟩ => ?_
  refine (finds_matches? _).bind since (fun parser since => ?_) fun parser since => ?_
  · refine (finds_expect _ _).keeps.bind since fun _ parser since => ?_
    exact (ends_done since made _).bind fun _ _ since => .pure since
  refine (finds_matches? _).bind since (fun parser since => ?_) fun parser since => ?_
  · refine (finds_matches? _).keeps.bind since fun _ parser since => ?_
    exact (ends_done since made _).bind fun _ _ since => .pure since
  refine (finds_matches? _).bind since (fun parser since => ?_) fun parser since => ?_
  · refine (finds_matches? _).bind since (fun parser since => ?_) fun parser since => ?_
    · refine (keeps_requireTest follows).bind since.lower fun _ parser since => ?_
      exact (ends_done since made _).bind fun _ _ since => .pure since
    · exact (ends_done since made _).bind fun _ _ since => .pure since
  refine (finds_skipUntil _).bind since (fun parser since => ?_) fun parser since => ?_
  · exact (ends_fault since made _).bind fun _ _ since => .pure since
  · exact (ends_drop since made).bind fun _ _ since => .pure since

theorem keeps_parameters (follows : Follows nested depth) (stop : Kind) :
    Keeps depth (parameters nested stop) := by
  refine (keeps_loop (fun first base floor parser since => ?_) true).seq fun _ => .pure ()
  have parameter := finds_parameter follows stop
  refine ends_look (ends_look ?_)
  split
  · exact .pure since
  split
  · exact (parameter base floor parser since).bind fun _ _ since => .pure since
  refine (finds_expect _ _).bind since (fun parser since => ?_) fun _ since => .pure since
  refine ends_look ?_
  split
  · exact .pure since.lower
  · exact (parameter base floor parser since.lower).bind fun _ _ since => .pure since

theorem keeps_parameterList (follows : Follows nested depth) :
    Keeps depth (parameterList nested) := by
  intro base floor parser since
  refine (ends_mark since).bind fun list parser ⟨since, made, _⟩ => ?_
  refine keeps_advance.bind since fun _ parser since => ?_
  refine (keeps_parameters follows _).bind since fun _ parser since => ?_
  refine (finds_expect _ _).keeps.bind since fun _ parser since => ?_
  exact ends_done since made _

theorem keeps_lambdaParameters (follows : Follows nested depth) :
    Keeps depth (lambdaParameters nested) := by
  intro base floor parser since
  refine (ends_mark since).bind fun list parser ⟨since, made, _⟩ => ?_
  refine (keeps_parameters follows _).bind since fun _ parser since => ?_
  exact ends_done since made _

/-! ## Subscripts -/

theorem keeps_checkItemEnd : Keeps depth checkItemEnd := by
  intro base floor parser since
  refine ends_look ?_
  split
  · exact .pure since
  · exact (keeps_missing _).bind since fun _ _ since => .pure since

theorem keeps_sliceItem (follows : Follows nested depth) : Keeps depth (sliceItem nested) := by
  intro base floor parser since
  have test := (follows.test false).finds.keeps
  refine (ends_mark since).bind fun item parser ⟨since, made, _⟩ => ?_
  refine test.bind since fun found parser since => ?_
  refine (finds_matches? _).bind since (fun parser since => ?_) fun parser since => ?_
  · refine test.bind since.lower fun _ parser since => ?_
    refine (finds_matches? _).bind since (fun parser since => ?_) fun parser since => ?_
    · exact test.bind since.lower fun _ parser since => ends_done since made _
    · exact ends_done since made _
  · cases found with
    | false => exact (keeps_missing _).bind since fun _ parser since => ends_done since made _
    | true => exact ends_done since made _

theorem keeps_sliceTail (follows : Follows nested depth) : Keeps depth (sliceTail nested) := by
  refine (keeps_repeatWhile ?_).seq fun _ => (finds_expect _ _).keeps.seq fun _ => .pure ()
  intro base floor parser since
  refine (finds_matches? _).bind since (fun parser since => ?_) fun _ since => .pure since
  refine ends_look ?_
  split
  · exact .pure since.lower
  refine (keeps_sliceItem follows).bind since fun _ parser since => ?_
  exact (keeps_checkItemEnd base _ parser since).mono fun found _ since => since.found found

theorem keeps_sliceStart (follows : Follows nested depth) : Keeps depth (sliceStart nested) := by
  intro base floor parser since
  refine ends_look ?_
  split
  · exact keeps_emptyNode _ base floor parser since
  · exact keeps_requireTest follows base floor parser since

theorem keeps_sliceStop (follows : Follows nested depth) : Keeps depth (sliceStop nested) := by
  intro base floor parser since
  have check : Keeps depth (do
      if !(← isAtAny [rbracket, .colon, .comma]) then missing "expected ':' or ']'") := by
    intro base floor parser since
    refine ends_look ?_
    split
    · exact keeps_missing _ base floor parser since
    · exact .pure since
  refine ends_look ?_
  dsimp only
  split
  · exact (keeps_emptyNode _).bind since fun _ parser since => check base floor parser since
  · exact (follows.test false).finds.keeps.bind since fun _ parser since => check base floor parser since

theorem keeps_sliceStep (follows : Follows nested depth) : Keeps depth (sliceStep nested) := by
  intro base floor parser since
  refine (finds_matches? _).bind since (fun parser since => ?_) fun _ since => .pure since
  exact (follows.test false).finds.keeps.bind since.lower fun _ _ since => .pure since

theorem ends_sliceRest (follows : Follows nested depth) {item : Marker} {base parser : Parser}
    {floor lower : Nat} (since : base.Since depth floor parser) (made : item.Since base lower) :
    Ends (sliceRest nested item) parser fun _ next => base.Since depth floor next := by
  refine (ends_done since made _).bind fun _ parser since => ?_
  refine keeps_checkItemEnd.bind since fun _ parser since => ?_
  exact keeps_sliceTail follows base floor parser since

theorem ends_sliceFromColon (follows : Follows nested depth) {item : Marker} {base parser : Parser}
    {floor lower : Nat} (since : base.Since depth floor parser) (made : item.Since base lower) :
    Ends (sliceFromColon nested item) parser fun _ next => base.Since depth floor next := by
  refine keeps_advance.bind since fun _ parser since => ?_
  refine ends_look ?_
  split
  · refine (keeps_emptyNode _).bind since fun _ parser since => ?_
    refine (ends_done since made _).bind fun _ parser since => ?_
    exact keeps_advance base floor parser since
  · refine (keeps_sliceStop follows).bind since fun _ parser since => ?_
    refine (keeps_sliceStep follows).bind since fun _ parser since => ?_
    exact ends_sliceRest follows since made

theorem keeps_slice (follows : Follows nested depth) : Keeps depth (slice nested) := by
  intro base floor parser since
  refine (ends_mark since).bind fun item parser ⟨since, made, _⟩ => ?_
  refine (keeps_sliceStart follows).bind since fun _ parser since => ?_
  refine ends_look ?_
  split
  · exact ends_sliceFromColon follows since made
  · exact ends_sliceRest follows since made

theorem keeps_subscript (follows : Follows nested depth) : Keeps depth (subscript nested) := by
  intro base floor parser since
  refine ends_look ?_
  split
  · exact (keeps_slice follows).bind since fun _ parser since => .pure since
  · refine (keeps_require _ (leads_tuple follows false).finds.keeps).bind since fun _ parser since => ?_
    exact (finds_expect _ _).keeps.bind since fun _ parser since => .pure since

/-! ## Chains -/

theorem passes_primary (follows : Follows nested depth) (target : Bool) {kind : Kind}
    (start : startsPrimary kind = true) : Passes depth kind (primary nested target) := by
  intro base floor parser since seen
  refine ends_look ?_
  rw [seen]
  have token (node : NodeKind) : Ends (do
      tokenNode node
      pure true) parser fun _ next => base.Since depth (floor + 1) next :=
    (passes_tokenNode kind node base floor parser since seen).bind fun _ _ since => .pure since
  cases kind <;> first
    | contradiction
    | exact token _
    | exact follows.display _ target base floor parser since seen

theorem misses_primary (target : Bool) : Misses depth startsPrimary (primary nested target) := by
  intro base floor parser since away
  refine ends_look ?_
  split <;> rename_i seen
  iterate 6
    rw [seen] at away
    contradiction
  exact .pure ⟨rfl, since⟩

/-- How much an assumption about a chain assumes. -/
def Assigned.rank : Assigned → Nat
  | .first => 2
  | .last => 1
  | .nothing => 0

/-- The marker around a chain that began at a cursor may still be resolved, and the chain has not
been taken back. -/
structure Chain.Open (base : Parser) (cursor : Nat) (chain : Chain) (parser : Parser) : Prop where
  made : chain.marker.Since base cursor
  inside : chain.marker.start < parser.builder.events.size
  began : chain.marker.cursor = cursor
  going : chain.retry? = none

/-- A chain that began at a cursor has been read up to its end, or was taken back because it assumed
too much. -/
def Chain.Ended (base : Parser) (depth cursor : Nat) (assigned : Assigned) (chain : Chain)
    (next : Parser) : Prop :=
  match chain.retry? with
  | none => base.Since depth (cursor + 1) next
  | some weaker => base.Since depth cursor next ∧ next.builder.cursor = cursor ∧
      weaker.rank < assigned.rank

/-- A marker around what a chain has so far is put around one more link. -/
theorem ends_wrapLink {base parser : Parser} {cursor higher : Nat} {chain : Chain}
    {assigned : Assigned} (since : base.Since depth (higher + 1) parser)
    (going : chain.Open base cursor parser) (kind : NodeKind) :
    Ends (do
      let marker ← wrap chain.marker kind
      pure (true, ({ marker } : Chain))) parser fun (goOn, chain) next =>
        if goOn then base.Since depth (higher + 1) next ∧ chain.Open base cursor next
        else chain.Ended base depth cursor assigned next := by
  refine (ends_wrap since going.made going.inside kind).bind ?_
  rintro marker next ⟨since, made, inside, began⟩
  exact .pure ⟨since, made, inside, began.trans going.began, rfl⟩

theorem ends_link (follows : Follows nested depth) {assigned : Assigned} {chain : Chain}
    {base parser : Parser} {cursor higher : Nat} (le : cursor + 1 ≤ higher)
    (since : base.Since depth higher parser) (going : chain.Open base cursor parser) :
    Ends (link nested assigned chain) parser fun (goOn, chain) next =>
      if goOn then base.Since depth (higher + 1) next ∧ chain.Open base cursor next
      else chain.Ended base depth cursor assigned next := by
  have later {next : Parser} (le : parser.builder.events.size ≤ next.builder.events.size) :
      chain.Open base cursor next :=
    { going with inside := Nat.lt_of_lt_of_le going.inside le }
  refine ends_look ?_
  split
  · rename_i seen
    split
    · rename_i first
      refine (ends_rollback since going.made).bind fun _ next ⟨since, back⟩ => .pure ?_
      exact ⟨since, back.trans going.began, first ▸ Nat.lt_succ_self 1⟩
    · refine ((passes_advance _).size since seen).bind fun _ parser ⟨since, le⟩ => ?_
      refine ((finds_expect _ _).keeps.size since).bind fun _ parser ⟨since, le'⟩ => ?_
      refine ends_look ?_
      exact ends_wrapLink since (later (Nat.le_trans le le')) _
  · rename_i seen
    refine (follows.arguments.size since seen).bind fun _ parser ⟨since, le⟩ => ?_
    exact ends_wrapLink since (later le) _
  · rename_i seen
    split
    · refine ((passes_advance _).size since seen).bind fun _ parser ⟨since, le⟩ => ?_
      refine ((keeps_subscript follows).size since).bind fun _ parser ⟨since, le'⟩ => ?_
      exact ends_wrapLink since (later (Nat.le_trans le le')) _
    · rename_i something
      refine (ends_rollback since going.made).bind fun _ next ⟨since, back⟩ => .pure ?_
      refine ⟨since, back.trans going.began, ?_⟩
      cases assigned with
      | nothing => exact absurd rfl something
      | first | last => simp [Assigned.rank]
  · refine (ends_drop since going.made).bind fun _ next since => .pure ?_
    simp only [Chain.Ended, going.going]
    exact since.raise (Nat.le_trans le since.reached)

/-- A chain that begins with a primary expression passes a token, or is taken back. -/
theorem ends_chain (follows : Follows nested depth) (assigned : Assigned) {kind : Kind}
    (start : startsPrimary kind = true) {base parser : Parser} {floor : Nat}
    (since : base.Since depth floor parser) (seen : parser.builder.current? = some kind) :
    Ends (chain nested assigned) parser fun ended next =>
      match ended with
      | .missing | .found => base.Since depth (floor + 1) next
      | .retry weaker => base.Since depth floor next ∧ next.builder.current? = some kind ∧
          weaker.rank < assigned.rank := by
  have reached := since.reached
  have significant := since.builder.significant
  refine (ends_mark (since.raise (Nat.le_refl _))).bind ?_
  intro marker next ⟨since, made, inside, began, view⟩
  have seen' := (congrFun view 0).trans seen
  refine ((passes_primary follows _ start).size since seen').bind fun found next ⟨since, le⟩ => ?_
  cases found with
  | false =>
      refine (ends_drop since made).bind fun _ _ since => .pure (since.raise ?_)
      exact Nat.le_trans (Nat.succ_le_succ reached) since.reached
  | true =>
      have going : ({ marker } : Chain).Open base parser.builder.cursor next :=
        ⟨made, Nat.lt_of_lt_of_le inside le, began, rfl⟩
      refine (Ends.loop (fun chain => chain.Open base parser.builder.cursor)
        (Chain.Ended base depth parser.builder.cursor assigned)
        (fun chain parser higher le since going => ends_link follows le since going)
        { marker } next since going).bind fun ended next holds => ?_
      unfold Chain.Ended at holds
      split <;> rename_i retry
      · rw [retry] at holds
        obtain ⟨since, back, weaker⟩ := holds
        refine .pure ⟨since.raise (by omega), ?_, weaker⟩
        rw [← seen]
        simp only [Builder.current?, Builder.nth?, Builder.nthToken?, back, significant,
          since.builder.significant]
      · rw [retry] at holds
        exact .pure (holds.raise (Nat.le_trans (Nat.succ_le_succ reached) holds.reached))

theorem passes_chainFrom (follows : Follows nested depth) (assigned : Assigned) {kind : Kind}
    (start : startsPrimary kind = true) : Passes depth kind (nested.chainFrom assigned) := by
  intro base floor parser since seen
  rw [Nested.chainFrom]
  refine (ends_chain follows assigned start since seen).bind fun ended next holds => ?_
  cases ended with
  | missing => exact .pure holds
  | found => exact .pure holds
  | retry weaker =>
      obtain ⟨since, seen, lower⟩ := holds
      exact passes_chainFrom follows weaker start base floor next since seen
termination_by assigned.rank

theorem misses_chainFrom (assigned : Assigned) :
    Misses depth startsPrimary (nested.chainFrom assigned) := by
  intro base floor parser since away
  rw [Nested.chainFrom]
  have missed : Ends (chain nested assigned) parser fun ended next =>
      ended = .missing ∧ base.Since depth floor next := by
    refine (ends_mark since).bind fun marker next ⟨since, made, _, _, view⟩ => ?_
    have away := (congrArg (Option.any startsPrimary) (congrFun view 0)).trans away
    refine (misses_primary _ base floor next since away).bind ?_
    rintro _ next ⟨rfl, since⟩
    exact (ends_drop since made).bind fun _ _ since => .pure ⟨rfl, since⟩
  refine missed.bind ?_
  rintro _ next ⟨rfl, since⟩
  exact .pure ⟨rfl, since⟩

theorem leads_member (follows : Follows nested depth) (target : Bool) :
    Leads depth startsPrimary (member nested target) :=
  ⟨fun _ start => passes_chainFrom follows _ start, misses_chainFrom _⟩

/-! ## Operations -/

/-- What follows the left operand of a level has room above the events before it. -/
theorem passes_leftAssociative (level : Precedence) {left right : ParseM Bool} {kind : Kind}
    (passes : Passes depth kind left) (keeps : Keeps depth right) :
    Passes depth kind (leftAssociative level left right) := by
  intro base floor parser since seen
  refine (ends_mark since).bind fun marker next ⟨since, made, inside, _, view⟩ => ?_
  have seen := (congrFun view 0).trans seen
  refine (passes.size since seen).bind fun found next ⟨since, le⟩ => ?_
  cases found with
  | false => exact (ends_drop since made).bind fun _ _ since => .pure since
  | true =>
      let going (marker : Marker) (next : Parser) : Prop :=
        marker.Since base floor ∧ marker.start < next.builder.events.size
      refine (Ends.loop going
        (fun marker next => base.Since depth (floor + 1) next ∧ marker.Since base floor) ?_
        marker next since ⟨made, Nat.lt_of_lt_of_le inside le⟩).bind
          fun marker parser ⟨since, made⟩ => ?_
      · intro marker parser higher le since ⟨made, inside⟩
        refine ends_look ?_
        split
        · exact .pure ⟨since.raise (Nat.le_trans le since.reached), made⟩
        · rename_i length operator
          have operand : ∀ parser : Parser, base.Since depth (higher + 1) parser →
              marker.start < parser.builder.events.size → Ends (do
                require expectedExpression right
                pure (true, ← wrap marker .binaryExpression)) parser fun (goOn, marker) next =>
                if goOn then base.Since depth (higher + 1) next ∧ going marker next
                else base.Since depth (floor + 1) next ∧ marker.Since base floor := by
            intro parser since inside
            refine ((keeps_require _ keeps).size since).bind fun _ parser ⟨since, le⟩ => ?_
            exact (ends_wrap since made (Nat.lt_of_lt_of_le inside le) _).bind
              fun _ _ ⟨since, made, inside, _⟩ => .pure ⟨since, made, inside⟩
          cases seen : parser.builder.current? with
          | none =>
              rw [show parser.builder.nth? 0 = none from seen] at operator
              contradiction
          | some kind =>
              refine ((passes_advance kind).size since seen).bind fun _ parser ⟨since, le⟩ => ?_
              have inside := Nat.lt_of_lt_of_le inside le
              dsimp only
              split
              · exact (keeps_advance.size since).bind fun _ parser ⟨since, le⟩ =>
                  operand parser since (Nat.lt_of_lt_of_le inside le)
              · exact operand parser since inside
      · exact (ends_drop since made).bind fun _ _ since => .pure since

theorem misses_leftAssociative (level : Precedence) {left right : ParseM Bool}
    {starts : Kind → Bool} (misses : Misses depth starts left) :
    Misses depth starts (leftAssociative level left right) := by
  intro base floor parser since away
  refine (ends_mark since).bind fun marker next ⟨since, made, _, _, view⟩ => ?_
  have away := (congrArg (Option.any starts) (congrFun view 0)).trans away
  refine (misses base floor next since away).bind ?_
  rintro _ next ⟨rfl, since⟩
  exact (ends_drop since made).bind fun _ _ since => .pure ⟨rfl, since⟩

theorem leads_leftAssociative (level : Precedence) {left right : ParseM Bool}
    {starts : Kind → Bool} (leads : Leads depth starts left) (keeps : Keeps depth right) :
    Leads depth starts (leftAssociative level left right) :=
  ⟨fun kind start => passes_leftAssociative level (leads.passes kind start) keeps,
    misses_leftAssociative level leads.misses⟩

theorem passes_prefixed {operand : ParseM Bool} (keeps : Keeps depth operand) (kind : Kind) :
    Passes depth kind (prefixed operand) := by
  intro base floor parser since seen
  refine (ends_mark since).bind fun expression next ⟨since, made, _, _, view⟩ => ?_
  have seen := (congrFun view 0).trans seen
  refine (passes_advance kind base floor next since seen).bind fun _ parser since => ?_
  refine (keeps_require _ keeps).bind since fun _ parser since => ?_
  exact (ends_done since made _).bind fun _ _ since => .pure since

theorem leads_power (follows : Follows nested depth) (target : Bool) :
    Leads depth startsPrimary (power nested target) := by
  have member := leads_member follows target
  refine ⟨fun kind start base floor parser since seen => ?_, fun base floor parser since away => ?_⟩
  · refine (ends_mark since).bind fun expression next ⟨since, made, _, _, view⟩ => ?_
    have seen := (congrFun view 0).trans seen
    refine (member.passes kind start base floor next since seen).bind fun found parser since => ?_
    cases found with
    | false => exact (ends_drop since made).bind fun _ _ since => .pure since
    | true =>
        refine (finds_matches? _).bind since (fun parser since => ?_) fun parser since => ?_
        · refine (keeps_require _ (follows.exponent target).keeps).bind since.lower
            fun _ parser since => ?_
          exact (ends_done since made _).bind fun _ _ since => .pure since
        · exact (ends_drop since made).bind fun _ _ since => .pure since
  · refine (ends_mark since).bind fun expression next ⟨since, made, _, _, view⟩ => ?_
    have away := (congrArg (Option.any startsPrimary) (congrFun view 0)).trans away
    refine (member.misses base floor next since away).bind ?_
    rintro _ next ⟨rfl, since⟩
    exact (ends_drop since made).bind fun _ _ since => .pure ⟨rfl, since⟩

theorem leads_unary (follows : Follows nested depth) (target : Bool) :
    Leads depth startsUnary (unary nested target) := by
  refine .or (fun kind here => follows.signed target kind (by simpa using here))
    (leads_power follows target) (fun parser here => ?_) fun parser away => ?_
  · exact congrFun (if_pos here) parser
  · exact congrFun (if_neg (Bool.not_eq_true _ ▸ away)) parser

theorem leads_bitOr (follows : Follows nested depth) (target : Bool) :
    Leads depth startsUnary (bitOr nested target) := by
  have unary := leads_unary follows target
  have multiplicative := leads_leftAssociative .multiplicative unary unary.finds.keeps
  have additive := leads_leftAssociative .additive multiplicative multiplicative.finds.keeps
  have shift := leads_leftAssociative .shift additive additive.finds.keeps
  have bitAnd := leads_leftAssociative .bitAnd shift shift.finds.keeps
  have bitXor := leads_leftAssociative .bitXor bitAnd bitAnd.finds.keeps
  exact leads_leftAssociative .bitOr bitXor bitXor.finds.keeps

/-- The star of an operand is passed even if there is no operand. -/
theorem passes_starred (symbol : Operator) (kind : NodeKind) {operand : ParseM Bool}
    (finds : Finds depth operand) :
    Passes depth (.operator symbol) (starred symbol kind operand) := by
  intro base floor parser since seen
  refine ends_isAt ?_
  split
  · rename_i away
    simp [Builder.isAt, seen] at away
  refine (ends_mark since).bind ?_
  rintro expression next ⟨since, made, _, _, view⟩
  have seen := (congrFun view 0).trans seen
  refine (passes_advance _ base floor next since seen).bind fun _ parser since => ?_
  refine finds.bind since (fun parser since => ?_) fun parser since => ?_
  · exact (ends_done since.lower made _).bind fun _ _ since => .pure since
  · refine (keeps_missing _).bind since fun _ parser since => ?_
    exact (ends_drop since made).bind fun _ _ since => .pure since

theorem leads_starred (symbol : Operator) (kind : NodeKind) {operand : ParseM Bool}
    {starts : Kind → Bool} (leads : Leads depth starts operand) :
    Leads depth (fun kind => kind == .operator symbol || starts kind)
      (starred symbol kind operand) := by
  refine .or (fun start here => ?_) leads (fun parser _ => rfl) fun parser away => ?_
  · cases eq_of_beq here
    exact passes_starred symbol kind leads.finds
  · rw [← isAt_eq_any] at away
    exact congrFun (if_pos (by simp [away])) parser

theorem leads_starExpression (follows : Follows nested depth) (target : Bool) :
    Leads depth startsComparison (starExpression nested target) :=
  leads_starred .star .starExpression (leads_bitOr follows target)

theorem finds_doubleStar (follows : Follows nested depth) : Finds depth (doubleStar nested) :=
  (leads_starred .starStar .doubleStarExpression (leads_bitOr follows false)).finds

theorem leads_negation (follows : Follows nested depth) (target : Bool) :
    Leads depth startsOperation (negation nested target) := by
  have comparison := leads_leftAssociative .comparison (leads_starExpression follows target)
    (leads_bitOr follows target).finds.keeps
  have special : ∀ kind, (kind == .reserved .notWord) = true →
      Passes depth kind (nested (.negation target)) := by
    intro kind here
    cases eq_of_beq here
    exact follows.negation target
  refine .or special comparison (fun parser here => ?_) fun parser away => ?_
  · rw [← isAt_eq_any] at here
    exact congrFun (if_pos here) parser
  · rw [← isAt_eq_any] at away
    exact congrFun (if_neg (Bool.not_eq_true _ ▸ away)) parser

theorem leads_operation (follows : Follows nested depth) (target : Bool) :
    Leads depth startsOperation (operation nested target) := by
  have negation := leads_negation follows target
  have conjunction := leads_leftAssociative .conjunction negation negation.finds.keeps
  exact leads_leftAssociative .disjunction conjunction conjunction.finds.keeps

/-! ## Lambdas and comprehensions -/

theorem ends_lambdaHead (follows : Follows nested depth) {base parser : Parser} {floor : Nat}
    (since : base.Since depth floor parser)
    (seen : parser.builder.current? = some (.reserved .lambdaWord)) :
    Ends (lambdaHead nested) parser fun expression next =>
      base.Since depth (floor + 1) next ∧ expression.Since base floor := by
  refine (ends_mark since).bind fun expression next ⟨since, made, _, _, view⟩ => ?_
  have seen := (congrFun view 0).trans seen
  refine (passes_advance _ base floor next since seen).bind fun _ parser since => ?_
  refine (keeps_lambdaParameters follows).bind since fun _ parser since => ?_
  exact (finds_expect _ _).keeps.bind since fun _ parser since => .pure ⟨since, made⟩

theorem passes_lambda (follows : Follows nested depth) {body : ParseM Bool}
    (keeps : Keeps depth body) : Passes depth (.reserved .lambdaWord) (lambda nested body) := by
  intro base floor parser since seen
  refine (ends_lambdaHead follows since seen).bind fun expression parser ⟨since, made⟩ => ?_
  refine (keeps_require _ keeps).bind since fun _ parser since => ?_
  exact (ends_done since made _).bind fun _ _ since => .pure since

/-- Each body is read after the word of its lambda, so the nesting of lambdas ends with the tokens. -/
theorem ends_rangeItem (follows : Follows nested depth) {base : Parser} {floor : Nat}
    (parser : Parser) (since : base.Since depth floor parser) :
    Ends nested.rangeItem parser fun _ next => base.Since depth floor next := by
  rw [Nested.rangeItem]
  refine ends_isAt ?_
  cases isAt : parser.builder.isAt (.reserved .lambdaWord) with
  | false => exact (leads_operation follows false).finds.keeps base floor parser since
  | true =>
      have seen := current?_of_isAt isAt
      have fromHere := since.raise (Nat.le_refl _)
      refine (ends_lambdaHead follows fromHere seen).bind ?_
      rintro expression next ⟨later, made⟩
      have moved := later.reached
      have inside := later.builder.inside
      have reached := since.reached
      have since : base.Since depth floor next := later.raise (by omega)
      refine (ends_rangeItem follows next since).bind fun found next since => ?_
      cases found with
      | false =>
          refine (keeps_missing _).bind since fun _ next since => ?_
          exact (ends_done since made _).bind fun _ _ since => .pure since
      | true => exact (ends_done since made _).bind fun _ _ since => .pure since
termination_by base.builder.significant.size - parser.builder.cursor
decreasing_by omega

theorem keeps_rangeItem (follows : Follows nested depth) : Keeps depth nested.rangeItem :=
  fun _ _ parser since => ends_rangeItem follows parser since

/-- A lambda or something else, as the next token says. -/
theorem leads_lambdaOr (follows : Follows nested depth) {body other : ParseM Bool}
    {starts : Kind → Bool} (keeps : Keeps depth body) (leads : Leads depth starts other) :
    Leads depth (fun kind => kind == .reserved .lambdaWord || starts kind) (do
      if ← isAtWord .lambdaWord then lambda nested body else other) := by
  have special : ∀ kind, (kind == .reserved .lambdaWord) = true →
      Passes depth kind (lambda nested body) := by
    intro kind here
    cases eq_of_beq here
    exact passes_lambda follows keeps
  refine .or special leads (fun parser here => ?_) fun parser away => ?_
  · rw [← isAt_eq_any] at here
    exact congrFun (if_pos here) parser
  · rw [← isAt_eq_any] at away
    exact congrFun (if_neg (Bool.not_eq_true _ ▸ away)) parser

theorem leads_rangeItem (follows : Follows nested depth) :
    Leads depth startsTest nested.rangeItem := by
  rw [rangeItem_eq]
  exact leads_lambdaOr follows (keeps_rangeItem follows) (leads_operation follows false)

theorem leads_condition (follows : Follows nested depth) :
    Leads depth startsTest (condition nested) :=
  leads_lambdaOr follows (follows.test false).finds.keeps (leads_operation follows false)

theorem keeps_targets (follows : Follows nested depth) : Keeps depth (targets nested) := by
  intro base floor parser since
  have finds := (leads_starExpression follows true).finds
  refine (ends_mark since).bind fun tuple parser ⟨since, made, _⟩ => ?_
  refine finds.bind since (fun parser since => ?_) fun parser since => ?_
  · refine ends_isAt ?_
    split
    · exact ends_drop since.lower made
    exact (keeps_moreItems finds).bind since.lower fun _ parser since => ends_done since made _
  · exact (keeps_missing _).bind since fun _ parser since => ends_drop since made

theorem passes_clause (follows : Follows nested depth) (kind : NodeKind) :
    Passes depth (.reserved .forWord) (clause nested kind) := by
  intro base floor parser since seen
  refine (passes_advance _ base floor parser since seen).bind fun _ parser since => ?_
  refine (keeps_targets follows).bind since fun _ parser since => ?_
  refine (finds_expect _ _).keeps.bind since fun _ parser since => ?_
  have range : Keeps depth (if kind = .generatorExpression then operation nested false
      else tupleOf nested.rangeItem) := by
    split
    · exact (leads_operation follows false).finds.keeps
    · exact (leads_tupleOf (leads_rangeItem follows)).finds.keeps
  refine (keeps_require _ range).bind since fun _ parser since => ?_
  refine keeps_repeatWhile (fun base floor parser since => ?_) base _ parser since
  refine ends_isAt ?_
  split
  · rename_i isAt
    have seen := current?_of_isAt isAt
    refine (passes_advance _ base floor parser since seen).bind fun _ parser since => ?_
    refine (keeps_require _ (leads_condition follows).finds.keeps).bind since fun _ parser since => ?_
    exact .pure since
  · exact .pure since

theorem ends_comprehension (follows : Follows nested depth) {expression : Marker}
    {close? : Option Kind} {kind : NodeKind} {base parser : Parser} {floor lower : Nat}
    (since : base.Since depth floor parser) (made : expression.Since base lower)
    (isAt : parser.builder.isAt (.reserved .forWord) = true) :
    Ends (comprehension nested expression close? kind) parser fun _ next =>
      base.Since depth floor next := by
  refine (ends_repeatWhile (·.builder.isAt (.reserved .forWord) = true) ?_ parser since isAt).bind
    fun _ parser since => ?_
  · intro parser floor since isAt
    have seen := current?_of_isAt isAt
    refine (passes_clause follows kind base floor parser since seen).bind fun _ parser since => ?_
    exact ⟨_, _, rfl, since.found _, id⟩
  · cases close? with
    | none => exact ends_done since made _
    | some close =>
        refine (finds_matches? close).bind since (fun parser since => ?_) fun parser since => ?_
        · exact ends_done since.lower made _
        · exact (keeps_missing _).bind since fun _ parser since => ends_done since made _

/-! ## Displays -/

theorem ends_elements (follows : Follows nested depth) (target : Bool) {expression : Marker}
    (close : Kind) (kind : NodeKind) {base parser : Parser} {floor lower : Nat}
    (since : base.Since depth floor parser) (made : expression.Since base lower) :
    Ends (elements nested target expression close kind) parser fun _ next =>
      base.Since depth floor next := by
  refine (keeps_repeatWhile ?_).bind since fun _ parser since => ?_
  · intro base floor parser since
    have element : ∀ parser : Parser, base.Since depth floor parser → Ends (do
        if ← isAt close then pure false
        else if ← Grammar.test nested target then pure true
        else
          missing ("expected an expression, ',' or " ++ ("'" ++ close.name ++ "'"))
          pure false) parser fun found next => base.Since depth (floor + found.toNat) next := by
      intro parser since
      refine ends_isAt ?_
      split
      · exact .pure since
      refine (follows.test target).finds.bind since (fun _ since => .pure since) fun parser since => ?_
      exact (keeps_missing _).bind since fun _ parser since => .pure since
    refine ends_isAt ?_
    split
    · exact .pure since
    refine (finds_matches? _).bind since (fun parser since => ?_) fun parser since => ?_
    · exact element parser since.lower
    · exact (keeps_missing _).bind since fun _ parser since => element parser since
  · refine (finds_expect _ _).keeps.bind since fun _ parser since => ?_
    exact ends_done since made _

theorem passes_listDisplay (follows : Follows nested depth) (target : Bool) :
    Passes depth lbracket (listDisplay nested target) := by
  intro base floor parser since seen
  refine (ends_mark since).bind fun expression next ⟨since, made, _, _, view⟩ => ?_
  have seen := (congrFun view 0).trans seen
  refine (passes_advance _ base floor next since seen).bind fun _ parser since => ?_
  refine (finds_matches? _).bind since (fun parser since => ?_) fun parser since => ?_
  · exact ends_done since.lower made _
  refine (keeps_require _ (follows.test target).finds.keeps).bind since fun _ parser since => ?_
  refine ends_isAt ?_
  split
  · rename_i isAt
    exact ends_comprehension follows since made isAt
  · exact ends_elements follows target _ _ since made

theorem passes_parenthesized (follows : Follows nested depth) (target : Bool) :
    Passes depth lpar (parenthesized nested target) := by
  intro base floor parser since seen
  refine (ends_mark since).bind fun expression next ⟨since, made, _, _, view⟩ => ?_
  have seen := (congrFun view 0).trans seen
  refine (passes_advance _ base floor next since seen).bind fun _ parser since => ?_
  refine (finds_matches? _).bind since (fun parser since => ?_) fun parser since => ?_
  · exact ends_done since.lower made _
  refine (leads_tuple follows target).finds.keeps.bind since fun _ parser since => ?_
  refine ends_isAt ?_
  split
  · rename_i isAt
    exact ends_comprehension follows since made isAt
  refine (ends_mark since).bind fun junk parser ⟨since, marked, _⟩ => ?_
  have closing : ∀ parser : Parser, base.Since depth (floor + 1) parser → Ends (do
      let _ ← expect rpar "expected ')'"
      done expression .parenthesizedExpression) parser fun _ next =>
        base.Since depth (floor + 1) next := by
    intro parser since
    exact (finds_expect _ _).keeps.bind since fun _ parser since => ends_done since made _
  refine (finds_skipUntil _).bind since (fun parser since => ?_) fun parser since => ?_
  · exact (ends_fault since.lower marked _).bind fun _ parser since => closing parser since
  · exact (ends_drop since marked).bind fun _ parser since => closing parser since

theorem finds_keyValue (follows : Follows nested depth) : Finds depth (keyValue nested) := by
  intro base floor parser since
  refine (ends_mark since).bind fun pair parser ⟨since, made, _⟩ => ?_
  refine (follows.test false).finds.bind since (fun parser since => ?_) fun parser since => ?_
  · refine (finds_expect _ _).keeps.bind since fun _ parser since => ?_
    refine (follows.test false).finds.bind since (fun parser since => ?_) fun parser since => ?_
    · exact (ends_done since.lower made _).bind fun _ _ since => .pure since
    · refine (keeps_missing _).bind since fun _ parser since => ?_
      exact (ends_drop since made).bind fun _ _ since => .pure since.lower
  · exact (ends_drop since made).bind fun _ _ since => .pure since

theorem ends_entries (follows : Follows nested depth) {expression : Marker} {base parser : Parser}
    {floor lower : Nat} (since : base.Since depth floor parser)
    (made : expression.Since base lower) :
    Ends (entries nested expression) parser fun _ next => base.Since depth floor next := by
  refine (keeps_repeatWhile ?_).bind since fun _ parser since => ?_
  · intro base floor parser since
    refine ends_isAt ?_
    split
    · exact .pure since
    refine (finds_expect _ _).keeps.bind since fun _ parser since => ?_
    refine ends_isAt ?_
    split
    · exact finds_doubleStar follows base floor parser since
    · exact finds_keyValue follows base floor parser since
  · refine (finds_expect _ _).keeps.bind since fun _ parser since => ?_
    exact ends_done since made _

theorem ends_dictionary (follows : Follows nested depth) {expression pair : Marker}
    {base parser : Parser} {floor lower lower' : Nat} (since : base.Since depth floor parser)
    (made : expression.Since base lower) (paired : pair.Since base lower') :
    Ends (dictionary nested expression pair) parser fun _ next => base.Since depth floor next := by
  refine (follows.test false).finds.bind since (fun parser since => ?_) fun parser since => ?_
  · refine (ends_done since.lower paired _).bind fun _ parser since => ?_
    refine ends_isAt ?_
    split
    · rename_i isAt
      exact ends_comprehension follows since made isAt
    · exact ends_entries follows since made
  · refine (keeps_missing _).bind since fun _ parser since => ?_
    refine (ends_done since paired _).bind fun _ parser since => ?_
    refine (finds_matches? _).keeps.bind since fun _ parser since => ?_
    exact ends_done since made _

theorem passes_braces (follows : Follows nested depth) :
    Passes depth lbrace (braces nested) := by
  intro base floor parser since seen
  refine (ends_mark since).bind fun expression next ⟨since, made, _, _, view⟩ => ?_
  have seen := (congrFun view 0).trans seen
  refine (passes_advance _ base floor next since seen).bind fun _ parser since => ?_
  refine (finds_matches? _).bind since (fun parser since => ?_) fun parser since => ?_
  · exact ends_done since.lower made _
  refine ends_isAt ?_
  split
  · refine (finds_doubleStar follows).bind since (fun parser since => ?_) fun parser since => ?_
    · exact ends_entries follows since.lower made
    · exact (keeps_missing _).bind since fun _ parser since => ends_done since made _
  refine (ends_mark since).bind fun first parser ⟨since, paired, _⟩ => ?_
  refine (follows.test false).finds.bind since (fun parser since => ?_) fun parser since => ?_
  · refine (finds_matches? _).bind since.lower (fun parser since => ?_) fun parser since => ?_
    · exact ends_dictionary follows since.lower made paired
    refine (ends_drop since paired).bind fun _ parser since => ?_
    refine ends_isAt ?_
    split
    · rename_i isAt
      exact ends_comprehension follows since made isAt
    · exact ends_elements follows false _ _ since made
  · refine (keeps_missing _).bind since fun _ parser since => ?_
    refine (ends_drop since paired).bind fun _ parser since => ?_
    exact ends_done since made _

theorem passes_display (follows : Follows nested depth) (delimiter : Delimiter) (target : Bool) :
    Passes depth (.opening delimiter) (display nested delimiter target) := by
  cases delimiter with
  | parenthesis => exact passes_parenthesized follows target
  | bracket => exact passes_listDisplay follows target
  | brace => exact passes_braces follows

/-! ## Arguments -/

theorem finds_namedArgument (follows : Follows nested depth) :
    Finds depth (namedArgument nested) := by
  intro base floor parser since
  refine ends_isAt ?_
  split
  · exact .pure since
  refine (ends_mark since).bind fun argument parser ⟨since, made, _⟩ => ?_
  refine keeps_advance.bind since fun _ parser since => ?_
  refine (finds_matches? _).bind since (fun parser since => ?_) fun parser since => ?_
  · refine (keeps_requireTest follows).bind since fun _ parser since => ?_
    exact (ends_done since made _).bind fun _ _ since => .pure since
  · exact (ends_rollback since made).bind fun _ _ ⟨since, _⟩ => .pure since

theorem finds_plainArgument (follows : Follows nested depth) (first : Bool) :
    Finds depth (plainArgument nested first) := by
  intro base floor parser since
  refine (ends_mark since).bind fun argument parser ⟨since, made, _⟩ => ?_
  refine (ends_mark since).bind fun generator parser ⟨since, made', _⟩ => ?_
  refine (follows.test false).finds.bind since (fun parser since => ?_) fun parser since => ?_
  · have close : ∀ parser : Parser, base.Since depth (floor + 1) parser → Ends (do
        done argument .argumentExpression
        pure true) parser fun found next => base.Since depth (floor + found.toNat) next := by
      intro parser since
      exact (ends_done since made _).bind fun _ _ since => .pure since
    cases first with
    | false => exact (ends_drop since made').bind fun _ parser since => close parser since
    | true =>
        refine ends_isAt ?_
        dsimp only
        split
        · rename_i isAt
          exact (ends_comprehension follows since made' isAt).bind fun _ _ since => close _ since
        · exact (ends_drop since made').bind fun _ parser since => close parser since
  · exact (ends_rollback since made).bind fun _ _ ⟨since, _⟩ => .pure since

theorem finds_argument (follows : Follows nested depth) (first : Bool) :
    Finds depth (argument nested first) := by
  intro base floor parser since
  refine ends_look ?_
  split
  · rename_i isAt
    obtain ⟨kind, -, seen⟩ := current?_of_isAtAny isAt
    refine (ends_mark since).bind fun argument next ⟨since, made, _, _, view⟩ => ?_
    have seen := (congrFun view 0).trans seen
    refine (passes_advance kind base floor next since seen).bind fun _ parser since => ?_
    refine (keeps_requireTest follows).bind since fun _ parser since => ?_
    exact (ends_done since made _).bind fun _ _ since => .pure since
  refine (finds_namedArgument follows).bind since (fun _ since => .pure since) fun _ since => ?_
  exact finds_plainArgument follows first base floor _ since

theorem passes_arguments (follows : Follows nested depth) :
    Passes depth lpar (arguments nested) := by
  intro base floor parser since seen
  refine (ends_mark since).bind fun list next ⟨since, made, _, _, view⟩ => ?_
  have seen := (congrFun view 0).trans seen
  refine (passes_advance _ base floor next since seen).bind fun _ parser since => ?_
  refine (keeps_loop ?_ true).bind since fun _ parser since => ?_
  · intro first base floor parser since
    refine ends_isAt ?_
    split
    · exact .pure since
    split
    · exact (finds_argument follows true base floor parser since).bind fun _ _ since => .pure since
    refine (finds_matches? _).bind since (fun parser since => ?_) fun parser since => ?_
    · refine ends_isAt ?_
      split
      · exact .pure since.lower
      · exact (finds_argument follows false base floor parser since.lower).bind
          fun _ _ since => .pure since
    · exact (keeps_missing _).bind since fun _ _ since => .pure since
  · refine (finds_expect _ _).keeps.bind since fun _ parser since => ?_
    exact ends_done since made _

/-! ## Full expressions -/

/-- What follows the condition of a choice. -/
theorem ends_choiceRest (follows : Follows nested depth) (target found : Bool)
    {expression condition : Marker} {base parser : Parser} {floor lower lower' : Nat}
    (since : base.Since depth floor parser) (made : expression.Since base lower)
    (made' : condition.Since base lower') :
    Ends (do
      if !found then missing expectedExpression
      else if ← matches? (.reserved .elseWord) then
        require expectedExpression (Grammar.test nested target)
      else missing "expected 'else'"
      drop condition
      done expression .conditionalExpression
      pure true) parser fun _ next => base.Since depth floor next := by
  have close : ∀ parser : Parser, base.Since depth floor parser → Ends (do
      drop condition
      done expression .conditionalExpression
      pure true) parser fun _ next => base.Since depth floor next := by
    intro parser since
    refine (ends_drop since made').bind fun _ parser since => ?_
    exact (ends_done since made _).bind fun _ _ since => .pure since
  cases found with
  | false => exact (keeps_missing _).bind since fun _ parser since => close parser since
  | true =>
      refine (finds_matches? _).bind since (fun parser since => ?_) fun parser since => ?_
      · exact (keeps_require _ (follows.test target).finds.keeps).bind since.lower
          fun _ parser since => close parser since
      · exact (keeps_missing _).bind since fun _ parser since => close parser since

theorem passes_choice (follows : Follows nested depth) (target : Bool) {kind : Kind}
    (start : startsOperation kind = true) : Passes depth kind (choice nested target) := by
  intro base floor parser since seen
  have operation := leads_operation follows target
  refine (ends_mark since).bind fun expression next ⟨since, made, _, _, view⟩ => ?_
  have seen := (congrFun view 0).trans seen
  refine (operation.passes kind start base floor next since seen).bind fun found next since => ?_
  cases found with
  | false => exact (ends_drop since made).bind fun _ _ since => .pure since
  | true =>
      refine ends_isAt ?_
      split
      · exact (ends_drop since made).bind fun _ _ since => .pure since
      refine (ends_mark since).bind fun condition parser ⟨since, made', _⟩ => ?_
      refine keeps_advance.bind since fun _ parser since => ?_
      refine operation.finds.keeps.bind since fun found parser since => ?_
      cases found with
      | false => exact ends_choiceRest follows target false since made made'
      | true =>
          refine ends_isAt ?_
          split
          · refine (ends_rollback since made').bind fun _ parser ⟨since, _⟩ => ?_
            exact (ends_drop since made).bind fun _ _ since => .pure since
          · exact ends_choiceRest follows target true since made made'

theorem misses_choice (follows : Follows nested depth) (target : Bool) :
    Misses depth startsOperation (choice nested target) := by
  intro base floor parser since away
  refine (ends_mark since).bind fun expression next ⟨since, made, _, _, view⟩ => ?_
  have away := (congrArg (Option.any startsOperation) (congrFun view 0)).trans away
  refine ((leads_operation follows target).misses base floor next since away).bind ?_
  rintro _ next ⟨rfl, since⟩
  exact (ends_drop since made).bind fun _ _ since => .pure ⟨rfl, since⟩

theorem leads_conditional (follows : Follows nested depth) (target : Bool) :
    Leads depth startsTest (conditional nested target) :=
  leads_lambdaOr follows (follows.test false).finds.keeps
    ⟨fun _ start => passes_choice follows target start, misses_choice follows target⟩

end Rules

/-! ## Nesting -/

theorem skippable_of_mem_signs {sign : Kind} (mem : sign ∈ signs) : skippable sign = true := by
  simp only [signs, List.mem_cons, List.not_mem_nil, or_false] at mem
  rcases mem with rfl | rfl | rfl <;> rfl

/-- The rules for the productions end where those that they are made of end one level deeper. -/
theorem Follows.nest {nested : Nested} {depth : Nat}
    (follows : depth < Builder.maxDepth → Follows nested (depth + 1)) :
    Follows (fun rule => Grammar.nest (production nested rule)) depth where
  test target := leads_nest fun shallow => leads_conditional (follows shallow) target
  exponent target := finds_nest fun shallow => (leads_unary (follows shallow) target).finds
  display delimiter target := passes_nest rfl fun shallow base floor parser since seen =>
    (passes_display (follows shallow) delimiter target base floor parser since seen).bind
      fun _ _ since => .pure since
  arguments := passes_nest rfl fun shallow base floor parser since seen =>
    (passes_arguments (follows shallow) base floor parser since seen).bind
      fun _ _ since => .pure since
  negation target := passes_nest rfl fun shallow =>
    passes_prefixed (leads_negation (follows shallow) target).finds.keeps _
  signed target _ mem := passes_nest (skippable_of_mem_signs mem) fun shallow =>
    passes_prefixed (leads_unary (follows shallow) target).finds.keeps _

/-- At the limit no rule is followed at all. -/
theorem Follows.unending {depth : Nat} (deep : Builder.maxDepth ≤ depth) :
    Follows (fun _ => Grammar.nest Grammar.unending) depth := by
  have limit (shallow : depth < Builder.maxDepth) : False := Nat.not_lt.2 deep shallow
  exact ⟨fun _ => leads_nest fun shallow => (limit shallow).elim,
    fun _ => finds_nest fun shallow => (limit shallow).elim,
    fun _ _ => passes_nest rfl fun shallow => (limit shallow).elim,
    passes_nest rfl fun shallow => (limit shallow).elim,
    fun _ => passes_nest rfl fun shallow => (limit shallow).elim,
    fun _ _ mem => passes_nest (skippable_of_mem_signs mem) fun shallow => (limit shallow).elim⟩

theorem follows_nestedFor (levels : Nat) {depth : Nat} (enough : Builder.maxDepth ≤ levels + depth) :
    Follows (nestedFor levels) depth := by
  induction levels generalizing depth with
  | zero => exact .unending (Nat.zero_add depth ▸ enough)
  | succ levels ih => exact .nest fun _ => ih (by omega)

/-- The rules of the grammar never run out of levels. -/
theorem follows_nested (depth : Nat) : Follows nested depth :=
  follows_nestedFor Builder.maxDepth (Nat.le_add_right _ _)

theorem leads_expression (depth : Nat) : Leads depth (startsNested depth) expression :=
  leads_tuple (follows_nested depth) false

theorem keeps_targetExpression (depth : Nat) : Keeps depth targetExpression :=
  keeps_require _ (leads_tuple (follows_nested depth) true).finds.keeps

/-- Targets are found wherever expressions are. -/
theorem passes_targetExpression {depth : Nat} {kind : Kind}
    (start : startsNested depth kind = true) : Passes depth kind targetExpression := by
  intro base floor parser since seen
  refine ((leads_tuple (follows_nested depth) true).passes kind start base floor parser since
    seen).bind fun found parser since => ?_
  cases found with
  | false => exact keeps_missing _ base _ parser since
  | true => exact .pure since

end StarlarkSyntax.Grammar
