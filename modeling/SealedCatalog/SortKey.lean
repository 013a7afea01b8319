import SealedCatalog.Calendar.Timestamp
import SealedCatalog.Entry
import SealedCatalog.Record
import SealedCatalog.SortKey.Packed
import SealedCatalog.TagPool

/-!
Sort keys. Every value of an entry that sorts has a text such that the texts are in the order of
the values; a value without one matches no comparison and comes after all others.
-/

namespace SealedCatalog.SortKey

/-- The key of calendar text: its milliseconds, packed. -/
def encodeDateText (text : String) : Option String :=
  (Calendar.timestamp? text).map packInteger

/-- The digits that every index of a list of tags can be written with. -/
def indexWidth (count : Nat) : Nat :=
  if count ≤ 1 then 0 else (Nat.toDigits 10 (count - 1)).length

/-- The indices one after the other, each with the width of the greatest. -/
def joinIndices (indices : List Nat) (count : Nat) : String :=
  String.ofList (indices.flatMap (padded (indexWidth count)))

def encodeText (method : SortingMethod) (text : String) : Option String :=
  match method with
  | .asString => some text
  | .asNumber => encodeNumberText text
  | .asDate => encodeDateText text
  | .unset => none
  | .disabled => none

def encodeRating (method : SortingMethod) (score : UInt32) : Option String :=
  if method = .asNumber then some (packInteger score.toNat) else none

def encodeIndices (method : SortingMethod) (indices : List Nat) (count : Nat) : Option String :=
  if method.isActive then some (joinIndices indices count) else none

/-- The key of a value under an entry. A value of another type has none. -/
def ofValue (entry : Entry) (value : EntryValue) (pool : TagPool) : Option String :=
  match entry.kind, value with
  | .string _, .string text => encodeText entry.sortingMethod text
  | .rating _ _, .rating score _ => encodeRating entry.sortingMethod score
  | .tag _, .tags indices =>
      encodeIndices entry.sortingMethod indices (pool.count entry.name)
  | _, _ => none

def ofRecord (entry : Entry) (record : Record) (pool : TagPool) : Option String :=
  (record.get? entry.name).bind fun value => ofValue entry value pool

end SealedCatalog.SortKey
