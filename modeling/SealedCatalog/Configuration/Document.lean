import SealedCatalog.Configuration.Check
import SealedCatalog.Entry.Codec

/-!
The check of an untrusted document that should be a schema. First comes its form, each problem with
its place in the document; a document of sound form is then read, with whole numbers in place of
the sizes and scores as they are written, and its content is checked.
-/

namespace SealedCatalog.Configuration

inductive FieldType where
  | string
  | boolean
  | number

namespace FieldType

def name : FieldType → String
  | string => "string"
  | boolean => "boolean"
  | number => "number"

def holds : FieldType → Json → Bool
  | string => Json.isString
  | boolean => Json.isBool
  | number => Json.isNumber

end FieldType

/-- The fields of an object in ascending order of their keys. -/
abbrev Fields := List (String × Json)

def fieldProblems (fields : Fields) (name : String) (required : FieldType) (place : String) :
    List String :=
  match Dict.findField name fields with
  | none => [s!"missing {place}.{name}"]
  | some value =>
      if required.holds value then []
      else [s!"{place}.{name} is not a {required.name} as expected"]

/-- The number of 32 bits that a JSON number denotes, if it denotes one, with or without a point. -/
def wholeNumber? : Json → Option UInt32
  | .int value =>
      if 0 ≤ value && value < Nat.pow 2 32 then some (UInt32.ofNat value.toNat) else none
  | .float value =>
      let whole := value.floor
      if value.isInteger && 0 ≤ whole && whole < Nat.pow 2 32 then some (UInt32.ofNat whole.toNat)
      else none
  | _ => none

def ceiling : Json → Int
  | .int value => value
  | .float value => if value.isInteger then value.floor else value.floor + 1
  | _ => 0

def isInteger : Json → Bool
  | .float value => value.isInteger
  | _ => true

/-- A dimension of 32 bits for a JSON number, rounded up. What is not positive counts as zero. -/
def clampDimension (document : Json) : UInt32 :=
  UInt32.ofNat (min (ceiling document).toNat (Nat.pow 2 32 - 1))

def hintProblems (position : Nat) : List Json → List String
  | [] => []
  | .string _ :: rest => hintProblems (position + 1) rest
  | hint :: rest =>
      s!".hints.[{position}] is not a string as expected but a {hint.typeName}" ::
        hintProblems (position + 1) rest

def hintFieldProblems : Option Json → List String
  | none => []
  | some .null => []
  | some (.array hints) => hintProblems 0 hints
  | some _ => [".hints is not null but not an array"]

def kindProblems (fields : Fields) (entryType : String) : List String :=
  match EntryType.ofName? entryType with
  | some .string => fieldProblems fields "unique" .boolean ""
  | some .tag => fieldProblems fields "exclusive" .boolean ""
  | some .rating =>
      fieldProblems fields "maximum_score" .number "" ++
        hintFieldProblems (Dict.findField "hints" fields)
  | none => [s!"unsupported type {entryType}"]

def methodProblems (fields : Fields) : List String :=
  match Dict.findField "sorting_method" fields with
  | some (.string method) =>
      if (SortingMethod.ofName? method).isSome then []
      else [s!"unsupported sorting method {method}"]
  | _ => []

def entryShapeProblems : Json → List String
  | .object fields =>
      fieldProblems fields "name" .string "" ++
        fieldProblems fields "sorting_method" .string "" ++
        fieldProblems fields "optional" .boolean "" ++
        methodProblems fields ++
        match Dict.findField "type" fields with
        | some (.string entryType) => kindProblems fields entryType
        | _ => fieldProblems fields "type" .string ""
  | .null => ["entry is null"]
  | _ => ["entry is not an object"]

/-- An entry with a whole number for its maximum score; a score that is none becomes zero, which the
check of the content reports. -/
def sanitizeEntry : Json → Json
  | .object fields =>
      match Dict.findField "type" fields, Dict.findField "maximum_score" fields with
      | some (.string entryType), some score =>
          if entryType = EntryType.rating.name && score.isNumber then
            .object (Dict.insertField "maximum_score"
              (Json.ofUInt32 ((wholeNumber? score).getD 0)) fields)
          else .object fields
      | _, _ => .object fields
  | other => other

def entriesShapeProblems (position : Nat) : List Json → List String
  | [] => []
  | entry :: rest =>
      (entryShapeProblems entry).map (s!".entries.[{position}]: " ++ ·) ++
        entriesShapeProblems (position + 1) rest

def entryFieldProblems : Option Json → List String
  | none => [".entries is missing"]
  | some (.array entries) => entriesShapeProblems 0 entries
  | some _ => [".entries is not an array"]

def sizeFieldProblems : Option Json → List String
  | none => []
  | some .null => []
  | some (.object size) =>
      fieldProblems size "width" .number ".image_size" ++
        fieldProblems size "height" .number ".image_size"
  | some _ => [".image_size is not an object"]

def shapeProblems (fields : Fields) : List String :=
  entryFieldProblems (Dict.findField "entries" fields) ++
    sizeFieldProblems (Dict.findField "image_size" fields)

def sanitizeDimension (name : String) (size : Fields) : Fields :=
  match Dict.findField name size with
  | some value => Dict.insertField name (Json.ofUInt32 (clampDimension value)) size
  | none => size

def sanitizeEntries (fields : Fields) : Fields :=
  match Dict.findField "entries" fields with
  | some (.array entries) =>
      Dict.insertField "entries" (.array (entries.map sanitizeEntry)) fields
  | _ => fields

def sanitizeSize (fields : Fields) : Fields :=
  match Dict.findField "image_size" fields with
  | some (.object size) =>
      Dict.insertField "image_size"
        (.object (sanitizeDimension "height" (sanitizeDimension "width" size))) fields
  | _ => fields

def sanitize (fields : Fields) : Json :=
  .object (sanitizeSize (sanitizeEntries fields))

def hasIntegerSize (fields : Fields) : Bool :=
  match Dict.findField "image_size" fields with
  | some (.object size) =>
      ((Dict.findField "width" size).all isInteger) &&
        ((Dict.findField "height" size).all isInteger)
  | _ => true

def documentProblems : Json → List ConfigurationProblem
  | .object fields =>
      match shapeProblems fields with
      | [] =>
          match ofJson? (sanitize fields) with
          | some configuration => configuration.contentProblems (hasIntegerSize fields)
          | none => [.shape "configuration does not deserialize"]
      | reasons => reasons.map .shape
  | .null => [.shape "configuration is null"]
  | _ => [.shape "configuration is not an object"]

end SealedCatalog.Configuration
