import SealedCatalog.Codable
import SealedCatalog.Indices

/-!
Tags. Every tag entry has a list of its tags, and records hold indices into it. New tags are
appended, so that an index keeps its meaning.
-/

namespace SealedCatalog

structure TagPool where
  pools : Dict (List String)
deriving DecidableEq, Inhabited

namespace TagPool

def empty : TagPool := ⟨Dict.empty⟩

/-- The tags of the given entries; of repeated entries the last one counts. -/
def ofEntries (entries : List (String × List String)) : TagPool :=
  ⟨Dict.ofList entries⟩

def tags (pool : TagPool) (entry : String) : List String :=
  (pool.pools.get? entry).getD []

def count (pool : TagPool) (entry : String) : Nat :=
  (pool.tags entry).length

def isEmpty (pool : TagPool) : Bool :=
  pool.pools.values.all List.isEmpty

def resolve (pool : TagPool) (entry : String) (index : Nat) : Option String :=
  (pool.tags entry)[index]?

def position (pool : TagPool) (entry tag : String) : Option Nat :=
  (pool.tags entry).findIdx? (· == tag)

/-- A list of tags with one more, unless it is there, and the index of that one. -/
def enroll (known : List String) (tag : String) : List String × Nat :=
  match known.findIdx? (· == tag) with
  | some index => (known, index)
  | none => (known ++ [tag], known.length)

def enrollAll (known : List String) : List String → List String × List Nat
  | [] => (known, [])
  | tag :: rest =>
      let (extended, index) := enroll known tag
      let (final, indices) := enrollAll extended rest
      (final, index :: indices)

/-- Append the tags that the entry does not have, and give the indices of all of them in ascending
order and each once. Without tags the pool stays as it is. -/
def register (pool : TagPool) (entry : String) (added : List String) : TagPool × List Nat :=
  if added.isEmpty then
    (pool, [])
  else
    let (known, indices) := enrollAll (pool.tags entry) added
    (⟨pool.pools.insert entry known⟩, Indices.sorted indices)

def tagList? (document : Json) : Option (List String) :=
  document.listOf? Json.string?

def toJson (pool : TagPool) : Json :=
  pool.pools.toJson fun tags => .array (tags.map .string)

def ofJson? (document : Json) : Option TagPool :=
  (Dict.ofJson? tagList? document).map TagPool.mk

instance : Codable TagPool := ⟨toJson, ofJson?⟩

end TagPool

end SealedCatalog
