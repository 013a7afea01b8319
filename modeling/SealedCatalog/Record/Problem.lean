import SealedCatalog.Entry
import SealedCatalog.Json.Value

/-!
Why a record cannot be stored as it is.
-/

namespace SealedCatalog

inductive RecordProblem where
  | missingImage
  | missing (entry : String)
  /-- The value has no sort key under the entry's sorting method. -/
  | formatting (entry : String) (method : SortingMethod)
  /-- Another record holds the same value of a unique entry. -/
  | duplicatedValue (entry value : String)
  | exclusive (entry : String)
deriving DecidableEq, Repr

namespace RecordProblem

def entry? : RecordProblem → Option String
  | missingImage => none
  | missing entry => some entry
  | formatting entry _ => some entry
  | duplicatedValue entry _ => some entry
  | exclusive entry => some entry

def message : RecordProblem → String
  | missingImage => "image is missing"
  | missing entry => entry ++ " is missing"
  | formatting entry method => entry ++ " cannot be read " ++ method.name
  | duplicatedValue entry value =>
      s!"{entry} has value \"{value}\" which another record already uses"
  | exclusive entry => entry ++ " accepts only one tag"

private def tagged (type : String) (entry : Json) (others : List (String × Json)) : Json :=
  .object (("type", .string type) :: ("key", entry) :: others)

def toJson : RecordProblem → Json
  | missingImage => tagged "missing" .null []
  | missing entry => tagged "missing" (.string entry) []
  | formatting entry method =>
      tagged "formatting" (.string entry) [("expected_format", .string method.name)]
  | duplicatedValue entry value =>
      tagged "duplicated_value" (.string entry) [("value", .string value)]
  | exclusive entry => tagged "exclusive" (.string entry) []

end RecordProblem

end SealedCatalog
