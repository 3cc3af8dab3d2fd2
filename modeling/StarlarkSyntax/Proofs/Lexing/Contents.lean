import StarlarkSyntax.Proofs.Grammar.Shape
import StarlarkSyntax.Proofs.Layout.Scan
import StarlarkSyntax.Proofs.Lexing.Local
/-!
# What is read of a text, wherever it stands

`contents` is what the tokens of a text are apart from their places, and the faults that are found in it. If
a part of a text is read into some tokens, then it is read into the same ones with something else after it,
as long as none of them looks further (`Stretch.inside`, `Stretch.change`).
-/

set_option autoImplicit false

namespace StarlarkSyntax

open Lexeme
open Layout (Piece)

theorem eq_lineFeed_of_lexeme {c : Char} {text : List Char}
    (is : (lexeme c text).verdict = .token .lineBreak) : c = '\n' := by
  have solid {lexeme : Lexeme} (solid : lexeme.Solid) : lexeme.verdict ≠ .token .lineBreak := by
    intro is
    cases (solid _ is).1
  unfold lexeme at is
  split at is
  · cases is
  split at is
  · rename_i found
    cases is
    unfold punctuation? at found
    split at found <;> first | rfl | cases found
  split at is
  · unfold Lexeme.continuation at is
    split at is <;> cases is
  split at is
  · cases is
  split at is
  · exact absurd is (solid (solid_point _))
  split at is
  · rename_i found
    exact absurd is (solid (solid_stringLiteral? found))
  split at is
  · exact absurd is (solid (solid_number _))
  split at is
  · exact absurd is (solid (solid_word _))
  · exact absurd is (solid (solid_symbol _ _))

/-! ## All tokens -/

/-- What is read, wherever it stands: a piece, and what is wrong with it if it is invalid. -/
abbrev Content := Piece × Option LexicalFault

def Scanned.content (scanned : Scanned) : Content :=
  (scanned.token.piece, scanned.error?.map LexicalError.fault)

/-- The fault that a verdict tells of. -/
def Verdict.fault? : Verdict → Option LexicalFault
  | .token _ => none
  | .fault reason _ => some reason

/-- What is read from a text. -/
def contents (text : List Char) : List Content :=
  (Cursor.ofText text).scan.map Scanned.content

/-- The characters of the token at the beginning of a text. -/
def reach (c : Char) (rest : List Char) : Nat := max 1 (lexeme c rest).length

/-- The token at the beginning of a text. -/
def contentOf (c : Char) (rest : List Char) : Content :=
  ((Cursor.kindOf (lexeme c rest).verdict, (c :: rest).take (reach c rest)), (lexeme c rest).verdict.fault?)

namespace Cursor

theorem next?_of_cons {cursor : Cursor} {c : Char} {rest : List Char} (text : cursor.rest = c :: rest) :
    ∃ found after, cursor.next? = some (found, after) ∧ after.rest = (c :: rest).drop (reach c rest) ∧
      found.content = contentOf c rest := by
  unfold next? contentOf reach
  rw [text]
  dsimp only
  cases verdict : (lexeme c rest).verdict with
  | token kind => exact ⟨_, _, rfl, by rw [skip_rest, text], rfl⟩
  | fault fault position => exact ⟨_, _, rfl, by rw [skip_rest, text], rfl⟩

/-- Where a text stands makes no difference to what is read. -/
theorem content_scan {cursor cursor' : Cursor} (same : cursor.rest = cursor'.rest) :
    cursor.scan.map Scanned.content = cursor'.scan.map Scanned.content := by
  cases text : cursor.rest with
  | nil =>
      have nothing : cursor.next? = none := by rw [next?, text]
      have nothing' : cursor'.next? = none := by rw [next?, ← same, text]
      rw [scan_of_none nothing, scan_of_none nothing']
  | cons c rest =>
      obtain ⟨found, after, next, left, content⟩ := next?_of_cons text
      obtain ⟨found', after', next', left', content'⟩ := next?_of_cons (same.symm.trans text)
      have shorter := length_next? next
      rw [scan_of_some next, scan_of_some next', List.map_cons, List.map_cons, content, content',
        content_scan (left.trans left'.symm)]
termination_by cursor.rest.length

end Cursor

theorem contents_nil : contents [] = [] := by
  rw [contents, Cursor.scan_of_none rfl, List.map_nil]

theorem contents_cons (c : Char) (rest : List Char) :
    contents (c :: rest) = contentOf c rest :: contents ((c :: rest).drop (reach c rest)) := by
  have text : (Cursor.ofText (c :: rest)).rest = c :: rest := rfl
  obtain ⟨found, after, next, left, content⟩ := Cursor.next?_of_cons text
  have same : after.rest = (Cursor.ofText ((c :: rest).drop (reach c rest))).rest := left
  rw [contents, Cursor.scan_of_some next, List.map_cons, content, contents, Cursor.content_scan same]

theorem contents_ne_nil {text : List Char} (more : text ≠ []) : contents text ≠ [] := by
  cases text with
  | nil => contradiction
  | cons c rest =>
      rw [contents_cons]
      exact List.cons_ne_nil _ _

theorem reach_le (c : Char) (rest : List Char) : reach c rest ≤ rest.length + 1 :=
  Nat.max_le.2 ⟨Nat.le_add_left _ _, length_lexeme_le c rest⟩

theorem one_le_reach (c : Char) (rest : List Char) : 1 ≤ reach c rest := Nat.le_max_left _ _

theorem length_le_reach (c : Char) (rest : List Char) : (lexeme c rest).length ≤ reach c rest :=
  Nat.le_max_right _ _

/-- The token at the beginning of a text, and what it leaves. -/
theorem contents_of_reach {c : Char} {body rest : List Char} (reaches : reach c (body ++ rest) = body.length + 1) :
    contents (c :: (body ++ rest)) = contentOf c (body ++ rest) :: contents rest := by
  rw [contents_cons, reaches, List.drop_succ_cons, List.drop_left]

theorem body_of_reach {c : Char} {body rest : List Char} (reaches : reach c (body ++ rest) = body.length + 1) :
    (contentOf c (body ++ rest)).1.2 = c :: body := by
  rw [contentOf, reaches, List.take_succ_cons, List.take_left]

/-- What is not invalid belongs to its kind. -/
theorem lexical_contentOf {c : Char} {rest : List Char} (valid : (contentOf c rest).1.1 ≠ .invalid) :
    Lexical (contentOf c rest).1.1 (contentOf c rest).1.2 := by
  rw [contentOf] at valid ⊢
  cases verdict : (lexeme c rest).verdict with
  | fault fault position =>
      rw [verdict] at valid
      exact absurd rfl valid
  | token kind =>
      have length : reach c rest = (lexeme c rest).length := Nat.max_eq_right (covers_one c rest kind verdict)
      rw [length]
      exact sound_lexeme c rest kind verdict

/-! ## Parts of texts -/

/-- A text is read into some tokens when the rest comes after it. -/
inductive Stretch (rest : List Char) : List Char → List Content → Prop
  | nil : Stretch rest [] []
  | cons {c : Char} {body text : List Char} {taken : List Content} :
      reach c (body ++ (text ++ rest)) = body.length + 1 → Stretch rest text taken →
      Stretch rest (c :: (body ++ text)) (contentOf c (body ++ (text ++ rest)) :: taken)

namespace Stretch

variable {rest next text : List Char} {taken : List Content}

theorem contents (stretch : Stretch rest text taken) : contents (text ++ rest) = taken ++ contents rest := by
  induction stretch with
  | nil => rfl
  | cons reaches _ ih => rw [List.cons_append, List.append_assoc, contents_of_reach reaches, ih, List.cons_append]

theorem bodies (stretch : Stretch rest text taken) : taken.flatMap (·.1.2) = text := by
  induction stretch with
  | nil => rfl
  | cons reaches _ ih => rw [List.flatMap_cons, body_of_reach reaches, ih, List.cons_append]

theorem lexical (stretch : Stretch rest text taken) :
    ∀ content ∈ taken, content.1.1 ≠ .invalid → Lexical content.1.1 content.1.2 := by
  induction stretch with
  | nil => exact List.forall_mem_nil _
  | cons _ _ ih => exact List.forall_mem_cons.2 ⟨lexical_contentOf, ih⟩

/-- The text of the first of its tokens. -/
theorem exists_of_contents {text : List Char} {left : List Content}
    (split : StarlarkSyntax.contents text = taken ++ left) :
    ∃ before after, text = before ++ after ∧ Stretch after before taken ∧
      StarlarkSyntax.contents after = left := by
  induction taken generalizing text with
  | nil => exact ⟨[], text, rfl, .nil, split⟩
  | cons first taken ih =>
      cases text with
      | nil =>
          rw [contents_nil] at split
          cases split
      | cons c rest =>
          rw [contents_cons] at split
          obtain ⟨rfl, others⟩ := List.cons.inj split
          obtain ⟨before, after, parts, stretch, left⟩ := ih others
          -- What the token takes is at least its first character.
          obtain ⟨count, reaches⟩ := Nat.exists_eq_add_of_le' (one_le_reach c rest)
          have fits := reach_le c rest
          rw [reaches, List.drop_succ_cons] at parts
          rw [reaches] at fits
          have whole := List.take_append_drop count rest
          have short : (rest.take count).length = count := List.length_take_of_le (Nat.le_of_succ_le_succ fits)
          generalize rest.take count = body at whole short
          subst short
          rw [parts] at whole
          subst whole
          exact ⟨c :: (body ++ before), after, by simp, .cons reaches stretch, left⟩

/-- The text of the first of its tokens. -/
theorem split {taken taken' : List Content} (stretch : Stretch rest text (taken ++ taken')) :
    Stretch (taken'.flatMap (·.1.2) ++ rest) (taken.flatMap (·.1.2)) taken := by
  obtain ⟨before, after, parts, stretch', left⟩ :=
    exists_of_contents (stretch.contents.trans (List.append_assoc taken taken' _))
  have whole := stretch.bodies
  rw [List.flatMap_append, stretch'.bodies] at whole
  rw [← whole, List.append_assoc] at parts
  rwa [stretch'.bodies, List.append_cancel_left parts]

theorem cons_congr {c : Char} {body : List Char}
    (reaches : reach c (body ++ (text ++ rest)) = body.length + 1)
    (same : lexeme c (body ++ (text ++ next)) = lexeme c (body ++ (text ++ rest)))
    (stretch : Stretch next text taken) :
    Stretch next (c :: (body ++ text)) (contentOf c (body ++ (text ++ rest)) :: taken) := by
  have reaches' : reach c (body ++ (text ++ next)) = body.length + 1 := by rwa [reach, same]
  have content : contentOf c (body ++ (text ++ next)) = contentOf c (body ++ (text ++ rest)) := by
    refine Prod.ext (Prod.ext ?_ ?_) ?_
    · exact congrArg (Cursor.kindOf ·.verdict) same
    · rw [body_of_reach reaches', body_of_reach reaches]
    · exact congrArg (·.verdict.fault?) same
  exact content ▸ .cons reaches' stretch

/-- If the text goes on after a part of it, then the part is read in the same way wherever it goes on to. -/
theorem inside {common more : List Char} (stretch : Stretch (common ++ more) text taken) (goesOn : common ≠ [])
    (joined : ['\\'] <:+ text → common = ['\r'] → next.head? ≠ some '\n') :
    Stretch (common ++ next) text taken := by
  induction stretch with
  | nil => exact .nil
  | @cons c body text taken reaches _ ih =>
      have length := List.length_pos_iff.2 goesOn
      have short : (lexeme c (body ++ (text ++ (common ++ more)))).length ≤ (body ++ (text ++ common)).length := by
        have := length_le_reach c (body ++ (text ++ (common ++ more)))
        simp only [List.length_append]
        omega
      have regroup (more : List Char) :
          body ++ (text ++ (common ++ more)) = body ++ (text ++ common) ++ more := by simp
      refine cons_congr reaches ?_ (ih fun last => joined ?_)
      · rw [regroup, regroup] at *
        refine lexeme_inside short fun backslash only => ?_
        have count := congrArg List.length only
        simp only [List.length_append, List.length_singleton] at count
        obtain rfl : body = [] := List.eq_nil_of_length_eq_zero (by omega)
        obtain rfl : text = [] := List.eq_nil_of_length_eq_zero (by omega)
        exact joined ⟨[], by rw [backslash]; rfl⟩ only
      · exact last.trans (List.suffix_append (c :: body) text)

/-- What may come after a token without changing it. -/
def Ends (next : List Char) (last : Content) : Prop :=
  last.1.1 = .lineBreak ∨ IsBreak next ∧ last.1.1 ∉ [.space, .comment, .invalid]

theorem lexeme_of_ends {c : Char} {body : List Char} (reaches : reach c (body ++ rest) = body.length + 1)
    (ends : Ends next (contentOf c (body ++ rest))) : lexeme c (body ++ next) = lexeme c (body ++ rest) := by
  cases verdict : (lexeme c (body ++ rest)).verdict with
  | fault fault position =>
      rw [Ends, contentOf, verdict] at ends
      rcases ends with is | ⟨-, solid⟩
      · cases is
      · exact absurd (show Kind.invalid ∈ [.space, .comment, .invalid] by decide) solid
  | token kind =>
      rw [Ends, contentOf, verdict] at ends
      rcases ends with is | ⟨ends, solid⟩
      · have feed : c = '\n' := eq_lineFeed_of_lexeme (verdict.trans (congrArg _ is))
        subst feed
        rfl
      · have length : (lexeme c (body ++ rest)).length = body.length + 1 := by
          rw [← reaches, reach, Nat.max_eq_right (covers_one c _ kind verdict)]
        have is : lexeme c (body ++ rest) = .ofKind (body.length + 1) kind := by
          rw [Lexeme.ofKind, ← length, ← verdict]
        simp only [Cursor.kindOf, List.mem_cons, List.not_mem_nil, or_false, not_or] at solid
        rw [is, lexeme_append_break is ⟨solid.1, solid.2.1⟩ ends]

/-- The last token of a part of a text does not change either if what comes after it ends it. -/
theorem change (stretch : Stretch rest text taken) (ends : ∀ last ∈ taken.getLast?, Ends next last) :
    Stretch next text taken := by
  induction stretch with
  | nil => exact .nil
  | @cons c body text taken reaches others ih =>
      cases taken with
      | nil =>
          obtain rfl : text = [] := others.bodies.symm
          refine cons_congr reaches ?_ .nil
          exact lexeme_of_ends reaches (ends _ rfl)
      | cons first taken =>
          refine cons_congr reaches ?_ (ih ends)
          have length : 1 ≤ text.length := by
            cases others
            exact Nat.le_add_left _ _
          have short : (lexeme c (body ++ (text ++ rest))).length ≤ (body ++ text).length := by
            have := length_le_reach c (body ++ (text ++ rest))
            rw [List.length_append]
            omega
          rw [← List.append_assoc, ← List.append_assoc] at *
          refine lexeme_inside short fun _ only => ?_
          -- The last token would be the carriage return, which is white space.
          have count := congrArg List.length only
          simp only [List.length_append, List.length_singleton] at count
          obtain rfl : body = [] := List.eq_nil_of_length_eq_zero (by omega)
          obtain rfl : text = ['\r'] := only
          generalize is : ['\r'] = text at others
          cases others with
          | @cons d body text _ _ others =>
              obtain ⟨rfl, nothing⟩ := List.cons.inj is
              obtain ⟨rfl, rfl⟩ := List.append_eq_nil_iff.1 nothing.symm
              cases others
              rcases ends _ rfl with is | ⟨-, solid⟩
              · cases is
              · exact absurd (List.mem_cons_self ..) solid

end Stretch

/-- All of a text. -/
theorem stretch_contents (text : List Char) : Stretch [] text (contents text) := by
  obtain ⟨before, after, rfl, stretch, nothing⟩ :=
    Stretch.exists_of_contents (List.append_nil (contents text)).symm
  obtain rfl : after = [] := of_not_not fun some => contents_ne_nil some nothing
  rwa [List.append_nil] at stretch ⊢

/-! ## Faults -/

/-- Just the invalid tokens have faults. -/
theorem isSome_fault (text : List Char) :
    ∀ content ∈ contents text, content.2.isSome = decide (content.1.1 = .invalid) := by
  cases text with
  | nil => simp [contents_nil]
  | cons c rest =>
      have shorter : ((c :: rest).drop (reach c rest)).length < (c :: rest).length := by
        have : 1 ≤ reach c rest := Nat.le_max_left _ _
        rw [List.length_drop, List.length_cons]
        omega
      rw [contents_cons]
      refine List.forall_mem_cons.2 ⟨?_, isSome_fault _⟩
      rw [contentOf]
      cases verdict : (lexeme c rest).verdict with
      | token kind => exact (decide_eq_false (valid_of_lexeme verdict)).symm
      | fault reason position => rfl
termination_by text.length
decreasing_by
  subst_vars
  exact shorter

/-- What is said about the invalid tokens of a text. -/
def messages (text : List Char) : List String :=
  (tokenize text).errors.map LexicalError.message

theorem messages_eq (text : List Char) :
    messages text = (contents text).filterMap (·.2.map LexicalFault.message) := by
  show (((Cursor.ofText text).scan.filterMap Scanned.error?).map LexicalError.message) = _
  rw [List.map_filterMap, contents, List.filterMap_map]
  refine List.filterMap_congr fun scanned _ => ?_
  exact (Option.map_map LexicalFault.message LexicalError.fault scanned.error?).symm

/-- There are as many messages as there are invalid tokens. -/
theorem length_messages (text : List Char) : (messages text).length =
    (((contents text).map Prod.fst).filter (·.1 = .invalid)).length := by
  rw [messages_eq, List.filter_map, List.length_map, List.length_filterMap_eq_countP,
    ← List.countP_eq_length_filter]
  refine List.countP_congr fun content mem => ?_
  have known := isSome_fault text content mem
  rw [Option.isSome_map, known]
  rfl

end StarlarkSyntax
