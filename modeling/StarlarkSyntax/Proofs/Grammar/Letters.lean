import StarlarkSyntax.Proofs.Grammar.Form
/-!
# Words of some letters

What is said of the parts of a word one after another is often said of the whole (`Joining`), and the words
of which such a thing is said are a language (`Form.such`), so that a form is within it if its parts are.
The simplest such thing is that all letters are of some sorts (`Alphabet`, `Form.lettered`).
-/

set_option autoImplicit false

namespace StarlarkSyntax

open scoped Computability

namespace Shape

/-- What is said of the shapes before and after some place is said of all of them. -/
class Joining (fine : List Shape → Prop) : Prop where
  nil : fine []
  append : ∀ {made made' : List Shape}, fine made → fine made' → fine (made ++ made')

variable {fine : List Shape → Prop} [Joining fine] {each : Shape → Prop} {made : List Shape}

/-- What is said of each of some shapes is said of all of them together. -/
theorem Joining.of_forall (all : ∀ shape ∈ made, fine [shape]) : fine made := by
  induction made with
  | nil => exact Joining.nil
  | cons shape made ih =>
      obtain ⟨first, others⟩ := List.forall_mem_cons.1 all
      exact Joining.append first (ih others)

/-- What is said of some shapes if something else is said of each of them. -/
def IfEach (each : Shape → Prop) (fine : List Shape → Prop) (made : List Shape) : Prop :=
  (∀ shape ∈ made, each shape) → fine made

instance : Joining (IfEach each fine) where
  nil := fun _ => Joining.nil
  append := fun first second all =>
    Joining.append (first (List.forall_mem_append.1 all).1) (second (List.forall_mem_append.1 all).2)

end Shape

/-- Some sorts of tokens and nodes. -/
structure Alphabet where
  token : Kind → Bool
  node : NodeKind → Bool

/-- Is a shape of one of the sorts? -/
def Alphabet.has (letters : Alphabet) : Shape → Bool
  | .token piece => letters.token piece.1
  | .node kind _ _ => letters.node kind

namespace Form

open Shape

variable {letters letters' : Alphabet} {form form' first : Language Shape} {kind separator : Kind}

/-- The words of which something is said that is said of all their parts. -/
def such (fine : List Shape → Prop) : Language Shape :=
  {made | fine made}

section

variable {fine : List Shape → Prop} [Joining fine]

theorem one_le_such : 1 ≤ such fine := by
  rintro _ rfl
  exact (Joining.nil : fine [])

theorem mul_le_such (le : form ≤ such fine) (le' : form' ≤ such fine) : form * form' ≤ such fine := by
  rintro _ ⟨made, mem, made', mem', rfl⟩
  exact (Joining.append (le mem) (le' mem') : fine (made ++ made'))

theorem kstar_le_such (le : form ≤ such fine) : form∗ ≤ such fine :=
  kstar_le_of_mul_le_left one_le_such (mul_le_such le_rfl le)

theorem optional_le_such (le : form ≤ such fine) : optional form ≤ such fine :=
  add_le one_le_such le

theorem separated_le_such (le : first ≤ such fine) (le' : token separator ≤ such fine)
    (le'' : form ≤ such fine) : separated first separator form ≤ such fine :=
  mul_le_such le (kstar_le_such (mul_le_such le' le''))

theorem listed_le_such (le : first ≤ such fine) (le' : token .comma ≤ such fine) (le'' : form ≤ such fine) :
    listed first form ≤ such fine :=
  optional_le_such (mul_le_such (separated_le_such le le' le'') (optional_le_such le'))

end

/-- Are all letters of a word of some sorts? -/
def Lettered (letters : Alphabet) (made : List Shape) : Prop :=
  ∀ shape ∈ made, letters.has shape = true

instance : Joining (Lettered letters) :=
  ⟨nofun, fun first second => List.forall_mem_append.2 ⟨first, second⟩⟩

/-- The words whose letters are all of some sorts. -/
abbrev lettered (letters : Alphabet) : Language Shape :=
  such (Lettered letters)

theorem token_le_lettered (is : letters.token kind = true) : token kind ≤ lettered letters := by
  rintro _ ⟨body, rfl⟩
  exact List.forall_mem_singleton.2 is

theorem oneOf_le_lettered {kinds : List Kind} (are : kinds.all letters.token = true) :
    oneOf kinds ≤ lettered letters := by
  rintro _ ⟨kind, mem, is⟩
  exact token_le_lettered (List.all_eq_true.1 are kind mem) is

theorem node_le_lettered {kind : NodeKind} (is : letters.node kind = true) : node kind ≤ lettered letters := by
  rintro _ ⟨children, rfl⟩
  exact List.forall_mem_singleton.2 is

theorem nodeOf_le_lettered {kind : NodeKind} (is : letters.node kind = true) :
    nodeOf kind form ≤ lettered letters := by
  rintro _ ⟨children, -, rfl⟩
  exact List.forall_mem_singleton.2 is

theorem lettered_mono (has : ∀ shape, letters.has shape = true → letters'.has shape = true) :
    lettered letters ≤ lettered letters' :=
  fun _ mem shape here => has shape (mem shape here)

theorem expression_le_lettered (all : ∀ kind : NodeKind, kind.isExpression = true → letters.node kind = true) :
    expression ≤ lettered letters := by
  rintro _ ⟨shape, rfl, is⟩
  obtain ⟨kind, message?, children, rfl⟩ := isNode_of_isExpression is
  exact List.forall_mem_singleton.2 (all kind (Bool.and_eq_true_iff.1 is).1)

theorem bare_le_lettered (is : letters.node .generatorExpression = true) : bare ≤ lettered letters := by
  rintro _ ⟨shape, rfl, bare⟩
  refine List.forall_mem_singleton.2 ?_
  unfold isBare at bare
  split at bare
  · exact is
  · cases bare

/-- What is said of each letter that is of some sorts is said of the words of these. -/
theorem lettered_le_such {fine : List Shape → Prop} [Joining fine]
    (each : ∀ shape, letters.has shape = true → fine [shape]) : lettered letters ≤ such fine :=
  fun made mem => show fine made from Joining.of_forall fun shape here => each shape (mem shape here)

end Form
end StarlarkSyntax
