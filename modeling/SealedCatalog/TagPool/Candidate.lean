import SealedCatalog.Text.Occurrence

/-!
Suggestions while a tag is typed: the tags that hold what was typed, the best matches first, and
perhaps the offer to create a new one.
-/

namespace SealedCatalog

/-- How a tag matches what was typed, from the best to the least. -/
inductive TagMatch where
  | exact
  | beginning
  | inside
deriving DecidableEq, Inhabited, Repr

def TagMatch.of? (criterion tag : String) : Option TagMatch :=
  if tag = criterion then some exact
  else if Text.beginsWith tag criterion then some beginning
  else if Text.contains tag criterion then some inside
  else none

inductive TagCandidate where
  | known (how : TagMatch) (index : Nat) (tag : String)
  | creation (tag : String)
deriving DecidableEq, Inhabited, Repr

namespace TagCandidate

def tag : TagCandidate → String
  | known _ _ tag => tag
  | creation tag => tag

def index? : TagCandidate → Option Nat
  | known _ index _ => some index
  | creation _ => none

/-- The tags that matched so far, by the way they match, and each list in the order of the tags. -/
structure Sifted where
  exact : List TagCandidate
  beginning : List TagCandidate
  inside : List TagCandidate

namespace Sifted

def empty : Sifted := ⟨[], [], []⟩

def add (sifted : Sifted) (how : TagMatch) (candidate : TagCandidate) : Sifted :=
  match how with
  | .exact => { sifted with exact := sifted.exact ++ [candidate] }
  | .beginning => { sifted with beginning := sifted.beginning ++ [candidate] }
  | .inside => { sifted with inside := sifted.inside ++ [candidate] }

/-- Look at one more tag, which stands at the given index. -/
def step (criterion : String) (sifted : Sifted) (found : String × Nat) : Sifted :=
  match TagMatch.of? criterion found.1 with
  | some how => sifted.add how (known how found.2 found.1)
  | none => sifted

end Sifted

def sift (criterion : String) (tags : List String) : Sifted :=
  tags.zipIdx.foldl (Sifted.step criterion) .empty

/-- The suggestions for a criterion: the matching tags by the way they match and then by index, and
last the creation of a tag, if that is allowed and no tag is equal to the criterion. -/
def suggest (criterion : String) (tags : List String) (allowCreating : Bool) :
    List TagCandidate :=
  let sifted := sift criterion tags
  sifted.exact ++ sifted.beginning ++ sifted.inside ++
    (if allowCreating && sifted.exact.isEmpty then [creation criterion] else [])

end TagCandidate

end SealedCatalog
