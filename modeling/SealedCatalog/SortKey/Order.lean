import SealedCatalog.SortKey

/-!
Records in the order of an entry. Records without a key come last in both directions, and records
with equal keys stay in the order of their ids.
-/

namespace SealedCatalog

namespace SortKey

/-- The order of two keys, a missing one after all others. -/
def compareKeys : Option String → Option String → Ordering
  | some left, some right => compare left right
  | some _, none => .lt
  | none, some _ => .gt
  | none, none => .eq

/-- The order of two keys in a direction; a missing one is last in both. -/
def compareDirected (descending : Bool) (left right : Option String) : Ordering :=
  match left, right with
  | some first, some second =>
      if descending then compare second first else compare first second
  | _, _ => compareKeys left right

def precedes (descending : Bool) (left right : Option String) : Bool :=
  (compareDirected descending left right).isLE

end SortKey

namespace Records

def keyed (records : Records) (entry : Entry) (pool : TagPool) :
    List (String × Option String) :=
  records.toList.map fun (id, record) => (id, SortKey.ofRecord entry record pool)

def sortedBy (records : Records) (entry : Entry) (pool : TagPool) (descending : Bool) :
    List String :=
  let ordered := (keyed records entry pool).mergeSort fun left right =>
    SortKey.precedes descending left.2 right.2
  ordered.map (·.1)

end Records

end SealedCatalog
