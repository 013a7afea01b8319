import SealedCatalog.Record
import SealedCatalog.Record.Problem

/-!
Values of unique entries that several records hold. The records are grouped by the value that they
hold for an entry; each record of a group with others is told so, entry after entry.
-/

namespace SealedCatalog

/-- The text that a record holds for an entry, unless it is empty. -/
def Record.text? (record : Record) (entry : String) : Option String :=
  match record.get? entry with
  | some (.string text) => if text.isEmpty then none else some text
  | _ => none

namespace Records

def addHolder (entry : String) (holders : Dict (List String)) (field : String × Record) :
    Dict (List String) :=
  match field.2.text? entry with
  | some text => holders.push text field.1
  | none => holders

/-- The ids of the records under the texts that these hold for an entry. -/
def holders (records : Records) (entry : String) : Dict (List String) :=
  records.toList.foldl (addHolder entry) Dict.empty

def sharedTexts (records : Records) (entry : String) : List (String × List String) :=
  (records.holders entry).toList.filter fun group => 1 < group.2.length

/-- Tell each id of a group which text it shares. -/
def tellGroup (entry : String) (told : Dict (List RecordProblem))
    (group : String × List String) : Dict (List RecordProblem) :=
  group.2.foldl (fun told id => told.push id (.duplicatedValue entry group.1)) told

def tellEntry (records : Records) (told : Dict (List RecordProblem)) (entry : Entry) :
    Dict (List RecordProblem) :=
  (records.sharedTexts entry.name).foldl (tellGroup entry.name) told

/-- What each id is told. An id that shares nothing is not among them. -/
def duplicated (records : Records) (configuration : Configuration) : Dict (List RecordProblem) :=
  (configuration.entries.filter Entry.isUnique).foldl records.tellEntry Dict.empty

end Records

end SealedCatalog
