import SealedCatalog.Json.Reader
import SealedCatalog.Json.Shape
import SealedCatalog.SortKey

/-!
Records from plain JSON: an object with a field for each entry, where a string stands for itself,
an array of texts for tags, and an object with a score and perhaps a comment for a rating. The
first problem refuses the record, and only an accepted record registers its tags.
-/

namespace SealedCatalog

inductive ImportError where
  | invalidJson
  | notObject
  | stringExpected (entry : String)
  | tagsExpected (entry : String)
  | tagTextExpected (entry : String)
  | ratingExpected (entry : String)
  | scoreTooHigh (entry : String) (score maximum : UInt32)
  | missing (entry : String)
  | exclusive (entry : String)
  /-- The value has no sort key under the entry's sorting method. -/
  | formatting (entry : String)
  | imageMissing
deriving DecidableEq, Repr

namespace ImportError

def message : ImportError → String
  | invalidJson => "Import error: invalid JSON"
  | notObject => "Import error: dumped record is not an object"
  | stringExpected entry => s!"Import error: {entry} expects a string"
  | tagsExpected entry => s!"Import error: {entry} expects an array of tags"
  | tagTextExpected entry => s!"Import error: {entry} expects non-empty tag strings"
  | ratingExpected entry =>
      "Import error: " ++ entry ++ " expects \x7b\"score\": n, \"comment\"?: text\x7d"
  | scoreTooHigh entry score maximum =>
      s!"Import error: {entry} score {score.toNat} exceeds {maximum.toNat}"
  | missing entry => "Missing required entry: " ++ entry
  | exclusive entry => s!"Entry {entry} accepts only one tag"
  | formatting entry => s!"Entry {entry} is not formatted for its sorting method"
  | imageMissing => "Image not found"

end ImportError

namespace Import

/-- What is read for an entry before its tags are registered. -/
inductive Loaded where
  | value (value : EntryValue)
  | tags (texts : List String)
deriving DecidableEq, Inhabited, Repr

def requirePresent (entry : Entry) (absent : Bool) : Except ImportError Unit :=
  if absent && !entry.optional then .error (.missing entry.name) else .ok ()

def loadString (entry : Entry) : Json → Except ImportError EntryValue
  | .string text => do
      requirePresent entry text.isEmpty
      return .string text
  | _ => .error (.stringExpected entry.name)

def tagText? : Json → Option String
  | .string text => if text.isEmpty then none else some text
  | _ => none

def loadTags (entry : Entry) (exclusive : Bool) : Json → Except ImportError (List String)
  | .array items =>
      match items.mapM tagText? with
      | none => .error (.tagTextExpected entry.name)
      | some texts => do
          if exclusive && decide (1 < texts.length) then
            throw (.exclusive entry.name)
          requirePresent entry texts.isEmpty
          return texts
  | _ => .error (.tagsExpected entry.name)

/-- The comment of a rating. An empty one counts as none. -/
def comment? (fields : List (String × Json)) : Option (Option String) :=
  match Dict.findField "comment" fields with
  | none => some none
  | some .null => some none
  | some (.string text) => some (if text.isEmpty then none else some text)
  | some _ => none

def loadRating (entry : Entry) (maximum : UInt32) : Json → Except ImportError EntryValue
  | .object fields =>
      match (Dict.findField "score" fields).bind Json.uint32? with
      | none => .error (.ratingExpected entry.name)
      | some score => do
          if maximum < score then
            throw (.scoreTooHigh entry.name score maximum)
          requirePresent entry (score == 0)
          match comment? fields with
          | none => throw (.ratingExpected entry.name)
          | some comment => return .rating score comment
  | _ => .error (.ratingExpected entry.name)

/-- Fail if a value that does not count as none has no sort key under an active method. -/
def requireSortable (entry : Entry) (pool : TagPool) (value : EntryValue) :
    Except ImportError Loaded :=
  if entry.sortingMethod.isActive && !value.isEmpty &&
      (SortKey.ofValue entry value pool).isNone then
    .error (.formatting entry.name)
  else
    .ok (.value value)

def loadEntry (entry : Entry) (pool : TagPool) (document : Json) : Except ImportError Loaded :=
  match entry.kind with
  | .string _ => do requireSortable entry pool (← loadString entry document)
  | .tag exclusive => do return .tags (← loadTags entry exclusive document)
  | .rating maximum _ => do requireSortable entry pool (← loadRating entry maximum document)

def loadAll (fields : List (String × Json)) (pool : TagPool) :
    List Entry → Except ImportError (List (String × Loaded))
  | [] => .ok []
  | entry :: rest =>
      match Dict.findField entry.name fields with
      | none => do
          requirePresent entry true
          loadAll fields pool rest
      | some document => do
          let loaded ← loadEntry entry pool document
          return (entry.name, loaded) :: (← loadAll fields pool rest)

def store (pool : TagPool) (values : Dict EntryValue) :
    List (String × Loaded) → TagPool × Dict EntryValue
  | [] => (pool, values)
  | (name, .value value) :: rest => store pool (Record.keep values name value) rest
  | (name, .tags texts) :: rest =>
      let (extended, indices) := pool.register name texts
      store extended (Record.keep values name (.ofIndices indices)) rest

end Import

/-- The record that a text describes and the pool with its tags. The image, which must be supplied
if records have images, is attached by the caller. -/
def importRecord (configuration : Configuration) (text : String) (pool : TagPool)
    (imageSupplied : Bool) : Except ImportError (Record × TagPool) :=
  match Json.parse? text with
  | some (.object fields) => do
      let loaded ← Import.loadAll fields pool configuration.entries
      if configuration.hasImages && !imageSupplied then
        throw .imageMissing
      let (extended, values) := Import.store pool Dict.empty loaded
      return (⟨none, values⟩, extended)
  | some _ => .error .notObject
  | none => .error .invalidJson

end SealedCatalog
