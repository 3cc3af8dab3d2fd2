import StarlarkSyntax.Proofs.Builder.Dress
/-!
# Invalid tokens in the trees of shapes

The shapes that a grammar makes have none of the tokens in them that it passed over. Of these the invalid
ones come back with the tree, in error nodes of their own before whatever comes after them. This is said of
pieces here (`Stock.fillAll`), and that it is what the trees of the shapes have in them
(`AllDressed.shapes_fillAll`).

Filling in the shapes of the first pieces of a text does not depend on the pieces after these, if no
invalid piece stands where they meet (`fillAll_append`).
-/

set_option autoImplicit false

namespace StarlarkSyntax

open Layout (Piece)
open Supply (Skip Skips)

/-- The pieces that a grammar does not pass over. -/
def visible (pieces : List Piece) : List Piece := pieces.filter (·.1 ≠ .invalid)

@[simp] theorem visible_append (s t : List Piece) : visible (s ++ t) = visible s ++ visible t :=
  List.filter_append _ _

/-- Pieces that are in no tree yet, and what is said about the invalid ones among them. -/
structure Stock where
  pieces : List Piece
  messages : List String

/-- Error nodes of invalid pieces. -/
def Shape.blamed : List Piece → List String → List Shape
  | [], _ => []
  | piece :: pieces, messages =>
    .node .error (some (messages.headD "invalid token")) [.token piece] :: blamed pieces messages.tail

namespace Stock

/-- The invalid pieces that come next. -/
def invalid (stock : Stock) : List Piece := stock.pieces.takeWhile (·.1 = .invalid)

/-- What is made of the invalid pieces that come next. -/
def passed (stock : Stock) : List Shape := Shape.blamed stock.invalid stock.messages

/-- What is left when the invalid pieces that come next have been passed over. -/
def ready (stock : Stock) : Stock where
  pieces := stock.pieces.dropWhile (·.1 = .invalid)
  messages := stock.messages.drop stock.invalid.length

mutual

/-- A shape with the invalid pieces in it, and what is left after it. -/
def fill (stock : Stock) : Shape → Shape × Stock
  | .token piece => (.token piece, ⟨stock.pieces.tail, stock.messages⟩)
  | .node kind message? children =>
    let filled := fillAll stock children
    (.node kind message? filled.1, filled.2)

/-- Several shapes with the invalid pieces before them and in them. -/
def fillAll (stock : Stock) : List Shape → List Shape × Stock
  | [] => ([], stock)
  | shape :: shapes =>
    let first := fill stock.ready shape
    let rest := fillAll first.2 shapes
    (stock.passed ++ first.1 :: rest.1, rest.2)

end

theorem fillAll_append_shapes (stock : Stock) (s t : List Shape) :
    stock.fillAll (s ++ t) = ((stock.fillAll s).1 ++ ((stock.fillAll s).2.fillAll t).1,
      ((stock.fillAll s).2.fillAll t).2) := by
  induction s generalizing stock with
  | nil => rfl
  | cons shape s ih => simp only [List.cons_append, fillAll, ih, List.append_assoc]

end Stock

/-! ## The shapes of trees -/

/-- What a supply has apart from trivia and places. -/
def Supply.stock (supply : Supply) : Stock where
  pieces := Layout.pieces supply.tokens
  messages := supply.messages

theorem Supply.seen_eq (supply : Supply) : supply.seen = visible supply.stock.pieces := by
  show _ = (Layout.pieces supply.tokens).filter _
  rw [Layout.pieces, List.filter_map, List.filter_filter]
  refine congrArg (List.map Token.piece) (List.filter_congr fun token _ => ?_)
  rw [Bool.and_comm, Kind.isSignificant, Layout.isCode]
  exact congrArg _ (decide_not (p := token.kind = .invalid)).symm

theorem Supply.Skips.shapes_eq {supply after : Supply} {skipped : List Tree}
    (skips : Skips supply skipped after) (ready : after.Ready) :
    Tree.shapes skipped = supply.stock.passed ∧ after.stock = supply.stock.ready := by
  induction skips with
  | @done supply =>
      have valid : supply.stock.invalid = [] ∧
          supply.stock.pieces.dropWhile (·.1 = .invalid) = supply.stock.pieces := by
        obtain ⟨tokens, messages⟩ := supply
        cases tokens with
        | nil => exact ⟨rfl, rfl⟩
        | cons token tokens =>
            have significant : token.kind.isSignificant = true := ready token rfl
            simp only [Kind.isSignificant, Bool.and_eq_true, bne_iff_ne] at significant
            have code : Layout.isCode token = true := significant.1
            simp [Stock.invalid, Supply.stock, Layout.pieces_cons, code, significant.2]
      rw [Stock.passed, Stock.ready, valid.1, valid.2]
      exact ⟨rfl, rfl⟩
  | more skip _ ih =>
      obtain ⟨shapes, left⟩ := ih ready
      rw [left, Tree.shapes, shapes]
      cases skip with
      | @trivia token tokens messages trivia =>
          have none : Layout.pieces (token :: tokens) = Layout.pieces tokens := by
            rw [Layout.pieces_cons, if_neg (by simp [Layout.isCode, trivia])]
          rw [Tree.shape, if_pos trivia, List.nil_append, Supply.stock, Supply.stock, none]
          exact ⟨rfl, rfl⟩
      | @invalid token tokens messages invalid =>
          have one : Layout.pieces (token :: tokens) = token.piece :: Layout.pieces tokens := by
            rw [Layout.pieces_cons, if_pos (by rw [Layout.isCode, invalid]; rfl)]
            rfl
          have is : token.piece.1 = .invalid := invalid
          have trivia : token.kind.isTrivia = false := by rw [invalid]; rfl
          simp [Tree.ofChildren, Tree.shape, Tree.shapes, trivia, Stock.passed, Stock.ready, Stock.invalid,
            Supply.stock, one, is, Shape.blamed]

mutual

theorem Dressed.shape_fill {stop : Caret} {supply after : Supply} {shape : Shape} {tree : Tree}
    (dressed : Dressed stop supply shape tree after) :
    tree.shape = [(supply.stock.fill shape).1] ∧ after.stock = (supply.stock.fill shape).2 := by
  cases dressed with
  | @token token tokens messages significant =>
      simp only [Kind.isSignificant, Bool.and_eq_true] at significant
      have code : Layout.isCode token = true := significant.1
      have kept : ¬token.kind.isTrivia = true := by simpa using significant.1
      rw [Tree.shape, if_neg kept, Supply.stock, Supply.stock, Layout.pieces_cons, if_pos code]
      exact ⟨rfl, rfl⟩
  | node dressed =>
      obtain ⟨shapes, left⟩ := dressed.shapes_fillAll
      rw [Tree.ofChildren, Tree.shape, shapes, left]
      exact ⟨rfl, rfl⟩

/-- The trees have the shapes that they are made of, with the invalid pieces in them. -/
theorem AllDressed.shapes_fillAll {stop : Caret} {supply after : Supply} {shapes : List Shape}
    {trees : List Tree} (dressed : AllDressed stop supply shapes trees after) :
    Tree.shapes trees = (supply.stock.fillAll shapes).1 ∧
      after.stock = (supply.stock.fillAll shapes).2 := by
  cases dressed with
  | nil => exact ⟨rfl, rfl⟩
  | cons skips ready dressed rest =>
      obtain ⟨passed, middle⟩ := skips.shapes_eq ready
      obtain ⟨first, next⟩ := dressed.shape_fill
      obtain ⟨others, last⟩ := rest.shapes_fillAll
      rw [Tree.shapes_append, Tree.shapes, passed, first, others, last, next, middle]
      exact ⟨rfl, rfl⟩

end

/-! ## Stocks one after the other -/

namespace Stock

instance : Append Stock where
  append stock more := ⟨stock.pieces ++ more.pieces, stock.messages ++ more.messages⟩

@[simp] theorem pieces_append (stock more : Stock) :
    (stock ++ more).pieces = stock.pieces ++ more.pieces := rfl

@[simp] theorem messages_append (stock more : Stock) :
    (stock ++ more).messages = stock.messages ++ more.messages := rfl

/-- There is a message for each invalid piece, and the last piece is none. -/
structure Closed (stock : Stock) : Prop where
  told : (stock.pieces.filter (·.1 = .invalid)).length = stock.messages.length
  ended : stock.pieces = [] ∨ ∃ piece, stock.pieces.getLast? = some piece ∧ piece.1 ≠ .invalid

/-- No invalid piece comes next. -/
def Fresh (stock : Stock) : Prop := ∀ piece ∈ stock.pieces.head?, piece.1 ≠ .invalid

variable {stock more : Stock}

/-- Invalid pieces at the beginning of a closed stock do not go on after it. -/
theorem Closed.split (closed : stock.Closed) (fresh : more.Fresh) :
    (stock ++ more).invalid = stock.invalid ∧ (stock ++ more).pieces.dropWhile (·.1 = .invalid) =
      stock.pieces.dropWhile (·.1 = .invalid) ++ more.pieces := by
  obtain ⟨pieces, messages⟩ := stock
  have ended := closed.ended
  clear closed
  simp only [invalid, pieces_append] at ended ⊢
  induction pieces with
  | nil =>
      cases next : more.pieces with
      | nil => exact ⟨rfl, rfl⟩
      | cons piece left =>
          have valid : piece.1 ≠ .invalid := fresh piece (by rw [next]; rfl)
          simp [valid]
  | cons piece pieces ih =>
      by_cases invalid : piece.1 = .invalid
      · have goesOn : pieces ≠ [] := by
          rintro rfl
          obtain ⟨last, is, valid⟩ := ended.resolve_left (List.cons_ne_nil _ _)
          obtain rfl : piece = last := by simpa using is
          exact valid invalid
        have ended : pieces = [] ∨ ∃ piece, pieces.getLast? = some piece ∧ piece.1 ≠ .invalid := by
          rw [List.getLast?_cons_of_ne_nil goesOn] at ended
          exact .inr (ended.resolve_left (List.cons_ne_nil _ _))
        simpa [invalid] using ih ended
      · simp [invalid]

/-- The invalid pieces that come next, and all others. -/
theorem length_filter_invalid (stock : Stock) : (stock.pieces.filter (·.1 = .invalid)).length =
    stock.invalid.length + (stock.ready.pieces.filter (·.1 = .invalid)).length := by
  have all : stock.invalid.filter (·.1 = .invalid) = stock.invalid :=
    List.filter_eq_self.2 fun _ mem =>
      List.mem_takeWhile_imp (p := fun piece : Piece => decide (piece.1 = .invalid)) mem
  calc (stock.pieces.filter (·.1 = .invalid)).length
      = ((stock.invalid ++ stock.ready.pieces).filter (·.1 = .invalid)).length := by
        rw [invalid, ready, List.takeWhile_append_dropWhile]
    _ = stock.invalid.length + (stock.ready.pieces.filter (·.1 = .invalid)).length := by
        rw [List.filter_append, all, List.length_append]

theorem Closed.length_invalid_le (closed : stock.Closed) :
    stock.invalid.length ≤ stock.messages.length := by
  rw [← closed.told, length_filter_invalid]
  exact Nat.le_add_right _ _

theorem blamed_append {pieces : List Piece} {messages : List String}
    (enough : pieces.length ≤ messages.length) (said : List String) :
    Shape.blamed pieces (messages ++ said) = Shape.blamed pieces messages := by
  induction pieces generalizing messages with
  | nil => rfl
  | cons piece pieces ih =>
      cases messages with
      | nil => simp at enough
      | cons message messages =>
          exact congrArg (_ :: ·) (ih (Nat.le_of_succ_le_succ enough))

theorem Closed.passed_append (closed : stock.Closed) (fresh : more.Fresh) :
    (stock ++ more).passed = stock.passed := by
  rw [passed, (closed.split fresh).1, messages_append, blamed_append closed.length_invalid_le]
  rfl

theorem Closed.ready_append (closed : stock.Closed) (fresh : more.Fresh) :
    (stock ++ more).ready = stock.ready ++ more := by
  obtain ⟨invalid, left⟩ := closed.split fresh
  rw [ready, invalid, left, messages_append,
    List.drop_append_of_le_length closed.length_invalid_le]
  rfl

theorem Closed.ready (closed : stock.Closed) : stock.ready.Closed where
  told := by
    have all := stock.length_filter_invalid
    rw [closed.told] at all
    rw [Stock.ready, List.length_drop, all, Nat.add_sub_cancel_left]
    rfl
  ended := by
    have split : stock.invalid ++ stock.ready.pieces = stock.pieces :=
      List.takeWhile_append_dropWhile
    rcases closed.ended with none | ⟨piece, last, valid⟩
    · rw [none] at split
      exact .inl (List.append_eq_nil_iff.1 split).2
    · by_cases none : stock.ready.pieces = []
      · exact .inl none
      · rw [← split, List.getLast?_append_of_ne_nil _ none] at last
        exact .inr ⟨piece, last, valid⟩

theorem fresh_ready (stock : Stock) : stock.ready.Fresh := by
  intro piece mem
  have passes := List.head?_dropWhile_not (fun piece : Piece => decide (piece.1 = .invalid)) stock.pieces
  rw [show (stock.pieces.dropWhile _).head? = some piece from mem] at passes
  simpa using passes

@[simp] theorem visible_ready (stock : Stock) : visible stock.ready.pieces = visible stock.pieces := by
  obtain ⟨pieces, messages⟩ := stock
  show visible (pieces.dropWhile _) = visible pieces
  induction pieces with
  | nil => rfl
  | cons piece pieces ih =>
      by_cases invalid : piece.1 = .invalid
      · simpa [visible, invalid] using ih
      · simp [invalid]

/-- The first piece has been taken. -/
theorem Closed.tail (closed : stock.Closed) (fresh : stock.Fresh) {piece : Piece} {left : List Piece}
    (seen : visible stock.pieces = piece :: left) :
    stock.pieces ≠ [] ∧ Closed ⟨stock.pieces.tail, stock.messages⟩ ∧ visible stock.pieces.tail = left := by
  obtain ⟨pieces, messages⟩ := stock
  have told := closed.told
  have ended := closed.ended
  cases pieces with
  | nil => cases seen
  | cons first pieces =>
      have valid : first.1 ≠ .invalid := fresh first rfl
      refine ⟨List.cons_ne_nil _ _, ⟨?_, ?_⟩, ?_⟩
      · simpa [valid] using told
      · by_cases none : pieces = []
        · exact .inl none
        · rw [List.getLast?_cons_of_ne_nil none] at ended
          exact .inr (ended.resolve_left (List.cons_ne_nil _ _))
      · simp only [visible, valid, ne_eq, not_false_eq_true, decide_true, List.filter_cons_of_pos] at seen
        exact (List.cons.inj seen).2

mutual

theorem Closed.fill_append {stock more : Stock} (closed : stock.Closed) (ready : stock.Fresh)
    (fresh : more.Fresh) (shape : Shape) {left : List Piece} (seen : visible stock.pieces = shape.leaves ++ left) :
    (stock ++ more).fill shape = ((stock.fill shape).1, (stock.fill shape).2 ++ more) ∧
      (stock.fill shape).2.Closed ∧ visible (stock.fill shape).2.pieces = left := by
  cases shape with
  | token piece =>
      obtain ⟨some, closed, rest⟩ := closed.tail ready seen
      refine ⟨?_, closed, rest⟩
      rw [fill, fill, pieces_append, List.tail_append_of_ne_nil some]
      rfl
  | node kind message? children =>
      obtain ⟨filled, closed, rest⟩ := closed.fillAll_append fresh children seen
      refine ⟨?_, closed, rest⟩
      rw [fill, fill, filled]

/-- Shapes are filled in from the first of two stocks. -/
theorem Closed.fillAll_append {stock more : Stock} (closed : stock.Closed) (fresh : more.Fresh)
    (shapes : List Shape) {left : List Piece} (seen : visible stock.pieces = Shape.leavesAll shapes ++ left) :
    (stock ++ more).fillAll shapes = ((stock.fillAll shapes).1, (stock.fillAll shapes).2 ++ more) ∧
      (stock.fillAll shapes).2.Closed ∧ visible (stock.fillAll shapes).2.pieces = left := by
  cases shapes with
  | nil => exact ⟨rfl, closed, seen⟩
  | cons shape shapes =>
      rw [Shape.leavesAll_cons, List.append_assoc, ← visible_ready] at seen
      obtain ⟨first, closed', rest⟩ := closed.ready.fill_append stock.fresh_ready fresh shape seen
      obtain ⟨others, closed'', rest⟩ := closed'.fillAll_append fresh shapes rest
      refine ⟨?_, closed'', rest⟩
      rw [fillAll, closed.ready_append fresh, first, closed.passed_append fresh, others]
      rfl

end

/-- Nothing is left of a closed stock of which all visible pieces were filled in. -/
theorem Closed.eq_nil (closed : stock.Closed) (nothing : visible stock.pieces = []) :
    stock = ⟨[], []⟩ := by
  obtain ⟨pieces, messages⟩ := stock
  have none : pieces = [] := by
    refine closed.ended.resolve_right ?_
    rintro ⟨piece, last, valid⟩
    have mem : piece ∈ visible pieces :=
      List.mem_filter.2 ⟨List.mem_of_getLast? last, decide_eq_true valid⟩
    rw [show visible pieces = [] from nothing] at mem
    cases mem
  have told := closed.told
  subst none
  obtain rfl : messages = [] := List.length_eq_zero_iff.1 told.symm
  rfl

end Stock

end StarlarkSyntax
