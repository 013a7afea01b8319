import SealedCatalog.Dict
import SealedCatalog.Indices

/-!
Records: a value for each of some entries, and perhaps an image.
-/

namespace SealedCatalog

structure ImageRef where
  name : String
  index : UInt32
deriving DecidableEq, Inhabited, Repr

inductive EntryValue where
  | string (text : String)
  /-- Indices into the entry's list of tags. -/
  | tags (indices : List Nat)
  | rating (score : UInt32) (comment : Option String)
deriving DecidableEq, Inhabited, Repr

namespace EntryValue

def ofIndices (indices : List Nat) : EntryValue :=
  tags (Indices.sorted indices)

/-- The empty text, no tag and the score zero count as no value. -/
def isEmpty : EntryValue → Bool
  | string text => text.isEmpty
  | tags indices => indices.isEmpty
  | rating score _ => score == 0

end EntryValue

structure Record where
  image : Option ImageRef
  entries : Dict EntryValue
deriving DecidableEq, Inhabited

namespace Record

def empty : Record := ⟨none, Dict.empty⟩

def withEntry (record : Record) (name : String) (value : EntryValue) : Record :=
  { record with entries := record.entries.insert name value }

def withImage (record : Record) (name : String) (index : UInt32) : Record :=
  { record with image := some ⟨name, index⟩ }

def get? (record : Record) (entry : String) : Option EntryValue :=
  record.entries.get? entry

def keep (values : Dict EntryValue) (entry : String) (value : EntryValue) : Dict EntryValue :=
  if value.isEmpty then values else values.insert entry value

/-- Whether the record has a value for the entry that does not count as none. -/
def hasEntry (record : Record) (entry : String) : Bool :=
  match record.get? entry with
  | some value => !value.isEmpty
  | none => false

end Record

abbrev Records := Dict Record

end SealedCatalog
