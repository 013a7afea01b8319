import SealedCatalog.Entry
import SealedCatalog.Record
import SealedCatalog.TagPool

/-!
Drafts: records while they are edited. A draft may name tags that no pool has yet; finalizing it
registers them and gives the record to store.
-/

namespace SealedCatalog

inductive DraftTag where
  | pooled (index : Nat)
  /-- The text of a tag that may be new. -/
  | typed (text : String)
deriving DecidableEq, Inhabited, Repr

namespace DraftTag

def index? : DraftTag → Option Nat
  | pooled index => some index
  | typed _ => none

def text? : DraftTag → Option String
  | pooled _ => none
  | typed text => some text

end DraftTag

inductive DraftValue where
  | string (text : String)
  | tags (chosen : List DraftTag)
  /-- The comment is kept while it is not in use. -/
  | rating (score : UInt32) (comment : String) (useComment : Bool)
deriving DecidableEq, Inhabited, Repr

namespace DraftValue

def isEmpty : DraftValue → Bool
  | string text => text.isEmpty
  | tags chosen => chosen.isEmpty
  | rating score _ _ => score == 0

def ofValue : EntryValue → DraftValue
  | .string text => string text
  | .tags indices => tags (indices.map .pooled)
  | .rating score comment => rating score (comment.getD "") comment.isSome

/-- The value to store under an entry, and the pool with the tags it needs. A value of another type
than the entry's stores nothing. -/
def settle (entry : Entry) (pool : TagPool) (draft : DraftValue) :
    TagPool × Option EntryValue :=
  match entry.kind, draft with
  | .string _, string text => (pool, some (.string text))
  | .tag _, tags chosen =>
      let (extended, registered) := pool.register entry.name (chosen.filterMap DraftTag.text?)
      (extended, some (.ofIndices (registered ++ chosen.filterMap DraftTag.index?)))
  | .rating _ _, rating score comment useComment =>
      (pool, some (.rating score (if useComment then some comment else none)))
  | _, _ => (pool, none)

end DraftValue

structure Draft where
  image : Option ImageRef
  entries : Dict DraftValue
deriving DecidableEq, Inhabited

namespace Draft

def empty : Draft := ⟨none, Dict.empty⟩

def ofRecord (record : Record) : Draft :=
  ⟨record.image, record.entries.mapValues DraftValue.ofValue⟩

/-- Settle the values of the given entries in order, after those of the entries before. -/
def settleEntries (draft : Draft) (pool : TagPool) (values : Dict EntryValue) :
    List Entry → TagPool × Dict EntryValue
  | [] => (pool, values)
  | entry :: rest =>
      match draft.entries.get? entry.name with
      | none => settleEntries draft pool values rest
      | some drafted =>
          match drafted.settle entry pool with
          | (extended, some value) =>
              settleEntries draft extended (Record.keep values entry.name value) rest
          | (extended, none) => settleEntries draft extended values rest

/-- The record to store and the pool with its tags. Values that count as none, and values of entries
that are not configured, are dropped. -/
def finalize (draft : Draft) (configuration : Configuration) (pool : TagPool) :
    Record × TagPool :=
  let (extended, values) := draft.settleEntries pool Dict.empty configuration.entries
  (⟨draft.image, values⟩, extended)

end Draft

end SealedCatalog
