import StarlarkSyntax.Unicode.ClusterPart
/-!
# Clusters of a text

A text is cut into clusters from its beginning. A character belongs to the cluster before it

* if it is a mark on what is there;
* if it is a line feed after a carriage return;
* if the two go on with a syllable, a flag, a chain of joined pictures or a group of linked
  consonants;
* if the character before it belongs to what comes next.

Any other character begins a cluster. All that decides this is what the text before it ends with,
which is a `ClusterEnd`.

`flatten_clusters` says that the clusters of a text together are the text, and
`ne_nil_of_mem_clusters` that there is something in each of them.
-/

set_option autoImplicit false

namespace StarlarkSyntax.Text

open StarlarkSyntax.Unicode

/-! ## Where a cluster goes on -/

/-- What a text ends with, as far as the next character can belong to the same cluster. -/
inductive ClusterEnd where
  /-- Anything that only marks can follow. -/
  | other
  /-- The beginning of a text, or a control. Nothing can follow. -/
  | edge
  /-- Only a line feed can follow. -/
  | carriageReturn
  /-- A character that belongs to what comes next. -/
  | forerunner
  | lead
  /-- A vowel, or a syllable that ends in one. -/
  | vowel
  /-- A final, or a syllable that ends in one. -/
  | final
  /-- The first letter of a flag. -/
  | flagLetter
  /-- A picture, with nothing but marks drawn onto it. -/
  | picture
  /-- A picture like that, and a joiner. -/
  | joinedPicture
  /-- A consonant, with nothing but marks drawn onto it. -/
  | consonant
  /-- A consonant like that, and a linker among the marks. -/
  | linkedConsonant
deriving DecidableEq, Inhabited

namespace ClusterEnd

/-- Does a character that is no mark go on with what a text ends with? -/
def continuesWith : ClusterEnd → ClusterPart → Bool
  | forerunner, _ => true
  | lead, .lead | lead, .vowel | lead, .openSyllable | lead, .closedSyllable => true
  | vowel, .vowel | vowel, .final => true
  | final, .final => true
  | flagLetter, .flagLetter => true
  | joinedPicture, .picture => true
  | linkedConsonant, .consonant => true
  | _, _ => false

/-- Does the next character belong to the same cluster? -/
def accepts (ending : ClusterEnd) (part : ClusterPart) : Bool :=
  match ending with
  | edge => false
  | carriageReturn => part == .lineFeed
  | _ => !part.isControl && (part.isMark || ending.continuesWith part)

/-- What a text ends with after a mark that is drawn onto what was there. -/
def afterExtender : ClusterEnd → ClusterEnd
  | picture => picture
  | consonant => consonant
  | linkedConsonant => linkedConsonant
  | _ => other

/-- What a text ends with after a mark that keeps consonants apart. -/
def afterNonJoiner : ClusterEnd → ClusterEnd
  | picture => picture
  | _ => other

/-- What a text ends with after a linker. -/
def afterLinker : ClusterEnd → ClusterEnd
  | picture => picture
  | consonant | linkedConsonant => linkedConsonant
  | _ => other

/-- What a text ends with after a joiner. Between consonants it is like any other mark. -/
def afterJoiner : ClusterEnd → ClusterEnd
  | picture => joinedPicture
  | consonant => consonant
  | linkedConsonant => linkedConsonant
  | _ => other

/-- What a text ends with after one more character. -/
def after (ending : ClusterEnd) : ClusterPart → ClusterEnd
  | .other | .spacingMark => other
  | .carriageReturn => carriageReturn
  | .lineFeed | .control => edge
  | .extender => ending.afterExtender
  | .nonJoiner => ending.afterNonJoiner
  | .linker => ending.afterLinker
  | .joiner => ending.afterJoiner
  | .forerunner => forerunner
  | .lead => lead
  | .vowel | .openSyllable => vowel
  | .final | .closedSyllable => final
  | .flagLetter => if ending = flagLetter then other else flagLetter
  | .picture => picture
  | .consonant => consonant

end ClusterEnd

/-! ## Cutting a text -/

/-- A text that is being cut into clusters. -/
structure Clustering where
  /-- The clusters so far, the last one first, each with its last character first. -/
  reversed : List (List Char) := []
  ending : ClusterEnd := .edge
deriving Inhabited

namespace Clustering

/-- Puts a character into the last cluster. -/
def extendLast (c : Char) : List (List Char) → List (List Char)
  | cluster :: clusters => (c :: cluster) :: clusters
  | [] => [[c]]

/-- Takes one more character. -/
def take (clustering : Clustering) (c : Char) : Clustering :=
  let part := ClusterPart.ofChar c
  ⟨if clustering.ending.accepts part then extendLast c clustering.reversed
    else [c] :: clustering.reversed, clustering.ending.after part⟩

/-- The clusters so far. -/
def clusters (clustering : Clustering) : List (List Char) :=
  (clustering.reversed.map List.reverse).reverse

end Clustering

/-- The clusters of a text. -/
def clusters (text : List Char) : List (List Char) :=
  (text.foldl Clustering.take {}).clusters

namespace Clustering

theorem flatten_extendLast (c : Char) (reversed : List (List Char)) :
    ((extendLast c reversed).map List.reverse).reverse.flatten =
      (reversed.map List.reverse).reverse.flatten ++ [c] := by
  cases reversed <;> simp [extendLast]

theorem flatten_take (clustering : Clustering) (c : Char) :
    (clustering.take c).clusters.flatten = clustering.clusters.flatten ++ [c] := by
  unfold take clusters
  dsimp only
  split
  · exact flatten_extendLast c clustering.reversed
  · simp

theorem flatten_foldl (text : List Char) (clustering : Clustering) :
    (text.foldl take clustering).clusters.flatten = clustering.clusters.flatten ++ text := by
  induction text generalizing clustering with
  | nil => simp
  | cons c text ih => simp [ih, flatten_take]

theorem nil_not_mem_take {clustering : Clustering} (filled : [] ∉ clustering.reversed) (c : Char) :
    [] ∉ (clustering.take c).reversed := by
  obtain ⟨reversed, ending⟩ := clustering
  unfold take
  dsimp only
  split
  · cases reversed with
    | nil => simp [extendLast]
    | cons cluster clusters =>
      exact fun member => filled (List.mem_cons_of_mem _ (by simpa [extendLast] using member))
  · simpa using filled

theorem nil_not_mem_foldl (text : List Char) (clustering : Clustering)
    (filled : [] ∉ clustering.reversed) : [] ∉ (text.foldl take clustering).reversed := by
  induction text generalizing clustering with
  | nil => exact filled
  | cons c text ih => exact ih _ (nil_not_mem_take filled c)

end Clustering

/-- The clusters of a text together are the text. -/
theorem flatten_clusters (text : List Char) : (clusters text).flatten = text :=
  Clustering.flatten_foldl text {}

/-- There is something in each cluster. -/
theorem ne_nil_of_mem_clusters {text cluster : List Char} (member : cluster ∈ clusters text) :
    cluster ≠ [] := by
  rintro rfl
  have filled := Clustering.nil_not_mem_foldl text {} (by simp)
  exact filled (by simpa [clusters, Clustering.clusters] using member)

/-- The characters of a cluster come from the text. -/
theorem mem_of_mem_cluster {text cluster : List Char} (member : cluster ∈ clusters text) {c : Char}
    (within : c ∈ cluster) : c ∈ text := by
  rw [← flatten_clusters text]
  exact List.mem_flatten_of_mem member within

end StarlarkSyntax.Text
