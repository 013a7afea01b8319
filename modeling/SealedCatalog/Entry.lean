import SealedCatalog.Codable

/-!
The schema of a catalog: an ordered list of named entries, each holding a string, tags or a rating,
and the size of the records' images if records have images.
-/

namespace SealedCatalog

inductive SortingMethod where
  | unset
  | disabled
  | asString
  | asNumber
  | asDate
deriving DecidableEq, Inhabited, Repr

namespace SortingMethod

def all : List SortingMethod := [unset, disabled, asString, asNumber, asDate]

def name : SortingMethod → String
  | unset => "unset"
  | disabled => "disabled"
  | asString => "as_string"
  | asNumber => "as_number"
  | asDate => "as_date"

def ofName? (text : String) : Option SortingMethod :=
  all.find? fun method => method.name == text

/-- Whether values have sort keys at all. -/
def isActive : SortingMethod → Bool
  | unset => false
  | disabled => false
  | _ => true

end SortingMethod

inductive EntryType where
  | string
  | tag
  | rating
deriving DecidableEq, Inhabited, Repr

namespace EntryType

def all : List EntryType := [string, tag, rating]

def name : EntryType → String
  | string => "string"
  | tag => "tag"
  | rating => "rating"

def ofName? (text : String) : Option EntryType :=
  all.find? fun entryType => entryType.name == text

end EntryType

inductive EntryKind where
  /-- A unique entry has no value twice among the records. -/
  | string (unique : Bool)
  /-- An exclusive entry has at most one tag in a record. -/
  | tag (exclusive : Bool)
  /-- Hints label the scores from one to the maximum. -/
  | rating (maximumScore : UInt32) (hints : Option (List String))
deriving DecidableEq, Inhabited, Repr

def EntryKind.entryType : EntryKind → EntryType
  | string _ => .string
  | tag _ => .tag
  | rating _ _ => .rating

inductive NameError where
  | sortingMethod (text : String)
  | entryType (text : String)
deriving DecidableEq, Repr

def NameError.message : NameError → String
  | sortingMethod text => "Invalid sorting method: " ++ text
  | entryType text => "Invalid entry type: " ++ text

def SortingMethod.parse (text : String) : Except NameError SortingMethod :=
  match ofName? text with
  | some method => .ok method
  | none => .error (.sortingMethod text)

def EntryType.parse (text : String) : Except NameError EntryType :=
  match ofName? text with
  | some entryType => .ok entryType
  | none => .error (.entryType text)

structure Entry where
  name : String
  sortingMethod : SortingMethod
  optional : Bool
  kind : EntryKind
deriving DecidableEq, Inhabited, Repr

namespace Entry

/-- A required string entry whose values may repeat. -/
def string (name : String) (sortingMethod : SortingMethod) : Entry :=
  ⟨name, sortingMethod, false, .string false⟩

def tag (name : String) (sortingMethod : SortingMethod) (exclusive : Bool) : Entry :=
  ⟨name, sortingMethod, false, .tag exclusive⟩

def rating (name : String) (maximumScore : UInt32) : Entry :=
  ⟨name, .asNumber, false, .rating maximumScore none⟩

def withOptional (entry : Entry) (optional : Bool) : Entry :=
  { entry with optional }

def withSorting (entry : Entry) (sortingMethod : SortingMethod) : Entry :=
  { entry with sortingMethod }

def entryType (entry : Entry) : EntryType :=
  entry.kind.entryType

def isUnique (entry : Entry) : Bool :=
  match entry.kind with
  | .string unique => unique
  | _ => false

def isExclusive (entry : Entry) : Bool :=
  match entry.kind with
  | .tag exclusive => exclusive
  | _ => false

end Entry

/-- The size in pixels of every record's image. -/
structure ImageSize where
  width : UInt32
  height : UInt32
deriving DecidableEq, Inhabited, Repr

structure Configuration where
  imageSize : Option ImageSize
  entries : List Entry
deriving DecidableEq, Inhabited, Repr

namespace Configuration

def ofEntries (entries : List Entry) : Configuration :=
  ⟨none, entries⟩

def withImageSize (configuration : Configuration) (width height : UInt32) : Configuration :=
  { configuration with imageSize := some ⟨width, height⟩ }

def hasImages (configuration : Configuration) : Bool :=
  configuration.imageSize.isSome

def find? (configuration : Configuration) (name : String) : Option Entry :=
  configuration.entries.find? fun entry => entry.name == name

end Configuration

end SealedCatalog
