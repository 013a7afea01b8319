import SealedCatalog.Draft
import SealedCatalog.Record.Problem
import SealedCatalog.SortKey

/-!
The check of a draft against the schema. Each entry has at most one problem: it misses a value, it
has too many tags, or its value does not sort.
-/

namespace SealedCatalog

namespace DraftValue

def fits (kind : EntryKind) (value : DraftValue) : Bool :=
  match kind, value with
  | .string _, string _ => true
  | .tag _, tags _ => true
  | .rating _ _, rating _ _ _ => true
  | _, _ => false

/-- Whether a value has a sort key under an active method. Every list of tags has one. -/
def sorts (method : SortingMethod) : DraftValue → Bool
  | string text => (SortKey.encodeText method text).isSome
  | rating score _ _ => (SortKey.encodeRating method score).isSome
  | tags _ => true

def overfills (entry : Entry) : DraftValue → Bool
  | tags chosen => entry.isExclusive && decide (1 < chosen.length)
  | _ => false

def problem? (entry : Entry) (value : DraftValue) : Option RecordProblem :=
  if value.overfills entry then some (.exclusive entry.name)
  else if entry.sortingMethod.isActive && !value.sorts entry.sortingMethod then
    some (.formatting entry.name entry.sortingMethod)
  else none

end DraftValue

/-- The problem of what a draft holds for an entry. A value of another type counts as none. -/
def Entry.draftProblem? (entry : Entry) (drafted : Option DraftValue) : Option RecordProblem :=
  match drafted.filter fun value => value.fits entry.kind && !value.isEmpty with
  | some value => value.problem? entry
  | none => if entry.optional then none else some (.missing entry.name)

namespace Draft

/-- The problems of a draft, first that of the image. An image may be supplied beside the draft. -/
def problems (draft : Draft) (imageSupplied : Bool) (configuration : Configuration) :
    List RecordProblem :=
  (if configuration.hasImages && draft.image.isNone && !imageSupplied then
      [RecordProblem.missingImage]
    else []) ++
    configuration.entries.filterMap fun entry =>
      entry.draftProblem? (draft.entries.get? entry.name)

end Draft

def Record.problems (record : Record) (configuration : Configuration) : List RecordProblem :=
  (Draft.ofRecord record).problems false configuration

end SealedCatalog
