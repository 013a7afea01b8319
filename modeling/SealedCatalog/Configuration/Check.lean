import SealedCatalog.Entry
import SealedCatalog.Text.Blank

/-!
What is wrong with a schema: every problem is reported, in a fixed order.
-/

namespace SealedCatalog

inductive ConfigurationProblem where
  | imageSizeNotPositive
  | imageSizeNotInteger
  /-- Positions count from zero; the message counts from one. -/
  | emptyName (position : Nat)
  | repeatedName (name : String)
  | badMaximumScore (name : String) (position : Nat)
  | hintMismatch (name : String) (maximumScore : UInt32) (hints : Nat)
  | nothingToStore
  /-- An untrusted document has not the form of a schema. -/
  | shape (message : String)
deriving DecidableEq, Repr

namespace ConfigurationProblem

def leastMaximumScore : Nat := 2

def greatestMaximumScore : Nat := 10

def message : ConfigurationProblem → String
  | imageSizeNotPositive => "image width and height must be positive"
  | imageSizeNotInteger => "image width and height must be integers"
  | emptyName position => s!"entry #{position + 1} has an empty name"
  | repeatedName name => s!"entry name \"{name}\" is used more than once"
  | badMaximumScore name position =>
      s!"rating entry \"{name}\" (#{position + 1}) must have an integer maximum score between " ++
        s!"{leastMaximumScore} and {greatestMaximumScore}"
  | hintMismatch name maximumScore hints =>
      s!"rating entry \"{name}\" has maximum score {maximumScore.toNat} but {hints} hints"
  | nothingToStore =>
      "no entry is configured and images are disabled, nothing could be stored"
  | shape message => message

end ConfigurationProblem

namespace Configuration

open ConfigurationProblem

/-- The names that a pass over the entries has used, and those that it has reported as repeated. -/
structure NamesMet where
  used : List String
  reported : List String

/-- What is wrong with a name, and the names met after it. A blank name is not met, and a repeated
one is reported once. -/
def nameProblems (names : NamesMet) (position : Nat) (name : String) :
    List ConfigurationProblem × NamesMet :=
  if Text.isAllBlank name then ([emptyName position], names)
  else if names.reported.contains name then ([], names)
  else if names.used.contains name then
    ([repeatedName name], { names with reported := name :: names.reported })
  else ([], { names with used := name :: names.used })

def scoreProblems (position : Nat) (entry : Entry) : List ConfigurationProblem :=
  match entry.kind with
  | .rating maximumScore hints =>
      if maximumScore.toNat < leastMaximumScore || greatestMaximumScore < maximumScore.toNat then
        [badMaximumScore entry.name position]
      else
        match hints with
        | some labels =>
            if labels.length = maximumScore.toNat then []
            else [hintMismatch entry.name maximumScore labels.length]
        | none => []
  | _ => []

def entryProblems (names : NamesMet) (position : Nat) : List Entry → List ConfigurationProblem
  | [] => []
  | entry :: rest =>
      let (named, later) := nameProblems names position entry.name
      named ++ scoreProblems position entry ++ entryProblems later (position + 1) rest

/-- What is wrong with a schema whose image size was written with integers or not. -/
def contentProblems (configuration : Configuration) (integerSize : Bool) :
    List ConfigurationProblem :=
  let notPositive := match configuration.imageSize with
    | some size => size.width == 0 || size.height == 0
    | none => false
  (if notPositive then [imageSizeNotPositive] else []) ++
    (if integerSize then [] else [imageSizeNotInteger]) ++
    entryProblems ⟨[], []⟩ 0 configuration.entries ++
    (if configuration.imageSize.isNone && configuration.entries.isEmpty then [nothingToStore]
      else [])

def problems (configuration : Configuration) : List ConfigurationProblem :=
  configuration.contentProblems true

end Configuration

end SealedCatalog
