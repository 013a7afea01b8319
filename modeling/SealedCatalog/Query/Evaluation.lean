import SealedCatalog.CatalogData
import SealedCatalog.Query
import SealedCatalog.Query.TextMatch
import SealedCatalog.SortKey

/-!
What a query finds. Conditions on an entry hold only of records with a value for it that does not
count as none.
-/

namespace SealedCatalog

namespace Record

def satisfies (record : Record) (entry : Entry) (condition : EntryValue → Bool) : Bool :=
  record.hasEntry entry.name && (record.get? entry.name).any condition

def mentions (record : Record) (entries : List Entry) (pool : TagPool) (text : String) : Bool :=
  entries.any fun entry =>
    (record.get? entry.name).any fun value => value.matchesText entry pool .part text

end Record

namespace Query

mutual

def holds (configuration : Configuration) (pool : TagPool) (record : Record) : Query → Bool
  | all parts => allHold configuration pool record parts
  | any parts => anyHolds configuration pool record parts
  | not part => !part.holds configuration pool record
  | mentions text => record.mentions configuration.entries pool text
  | has entry => record.hasEntry entry.name
  | includes entry text => record.satisfies entry fun value =>
      value.matchesText entry pool .part text
  | exactly entry text => record.satisfies entry fun value =>
      value.matchesText entry pool .whole text
  | compare entry relation target _ => record.satisfies entry fun value =>
      (SortKey.ofValue entry value pool).any fun key => relation.holds key target

def allHold (configuration : Configuration) (pool : TagPool) (record : Record) :
    List Query → Bool
  | [] => true
  | part :: rest =>
      part.holds configuration pool record && allHold configuration pool record rest

def anyHolds (configuration : Configuration) (pool : TagPool) (record : Record) :
    List Query → Bool
  | [] => false
  | part :: rest =>
      part.holds configuration pool record || anyHolds configuration pool record rest

end

/-- The ids of the records of which the query holds, in ascending order. -/
def search (query : Query) (configuration : Configuration) (pool : TagPool)
    (records : Records) : List String :=
  (records.toList.filter fun field => query.holds configuration pool field.2).map (·.1)

end Query

def CatalogData.search (data : CatalogData) (query : Query) : List String :=
  query.search data.configuration data.tagPool data.records

end SealedCatalog
