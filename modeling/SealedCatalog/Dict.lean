/-!
Dictionaries keyed by text, kept in ascending key order. Texts are ordered by code point, which
for UTF-8 is the order of their bytes. Main statements: what a look-up finds after `insert`, `push`,
`erase` and `mapValues`.
-/

namespace SealedCatalog

universe u v

/-- An association list whose keys ascend strictly. -/
structure Dict (α : Type u) where
  toList : List (String × α)
  ascending : toList.Pairwise (fun left right => left.1 < right.1)

namespace Dict

variable {α : Type u} {β : Type v}

instance [DecidableEq α] : DecidableEq (Dict α) := fun left right =>
  if equal : left.toList = right.toList then
    isTrue (by cases left; cases right; simp_all)
  else
    isFalse (fun same => equal (congrArg toList same))

/-- Put a field into an ascending list, replacing the field of the same key. -/
def insertField (key : String) (value : α) : List (String × α) → List (String × α)
  | [] => [(key, value)]
  | head :: rest =>
      if key < head.1 then
        (key, value) :: head :: rest
      else if head.1 < key then
        head :: insertField key value rest
      else
        (key, value) :: rest

def findField (key : String) : List (String × α) → Option α
  | [] => none
  | head :: rest => if head.1 = key then some head.2 else findField key rest

theorem mem_insertField {key : String} {value : α} {fields : List (String × α)}
    {field : String × α} (member : field ∈ insertField key value fields) :
    field = (key, value) ∨ field ∈ fields := by
  induction fields with
  | nil => simpa [insertField] using member
  | cons head rest induction =>
      simp only [insertField] at member
      split at member
      · simpa using member
      · split at member
        · rcases List.mem_cons.mp member with same | later
          · exact .inr (by simp [same])
          · rcases induction later with here | there
            · exact .inl here
            · exact .inr (List.mem_cons_of_mem _ there)
        · rcases List.mem_cons.mp member with same | later
          · exact .inl same
          · exact .inr (List.mem_cons_of_mem _ later)

theorem ascending_insertField {key : String} {value : α} {fields : List (String × α)}
    (ascending : fields.Pairwise (fun left right => left.1 < right.1)) :
    (insertField key value fields).Pairwise (fun left right => left.1 < right.1) := by
  induction fields with
  | nil => simp [insertField]
  | cons head rest induction =>
      have ⟨below, tail⟩ := List.pairwise_cons.mp ascending
      simp only [insertField]
      split
      next less =>
        refine List.pairwise_cons.mpr ⟨?_, ascending⟩
        intro field member
        rcases List.mem_cons.mp member with same | later
        · exact same ▸ less
        · exact String.lt_trans less (below field later)
      next notLess =>
        split
        next greater =>
          refine List.pairwise_cons.mpr ⟨?_, induction tail⟩
          intro field member
          rcases mem_insertField member with same | later
          · exact same ▸ greater
          · exact below field later
        next notGreater =>
          have same : key = head.1 :=
            String.le_antisymm (String.not_lt.mp notGreater) (String.not_lt.mp notLess)
          exact List.pairwise_cons.mpr ⟨fun field later => same ▸ below field later, tail⟩

def empty : Dict α := ⟨[], List.Pairwise.nil⟩

instance : EmptyCollection (Dict α) := ⟨empty⟩

instance : Inhabited (Dict α) := ⟨empty⟩

def get? (dict : Dict α) (key : String) : Option α :=
  findField key dict.toList

def contains (dict : Dict α) (key : String) : Bool :=
  (dict.get? key).isSome

def keys (dict : Dict α) : List String :=
  dict.toList.map (·.1)

def values (dict : Dict α) : List α :=
  dict.toList.map (·.2)

def size (dict : Dict α) : Nat :=
  dict.toList.length

def insert (dict : Dict α) (key : String) (value : α) : Dict α :=
  ⟨insertField key value dict.toList, ascending_insertField dict.ascending⟩

def erase (dict : Dict α) (key : String) : Dict α :=
  ⟨dict.toList.filter (fun field => field.1 != key), dict.ascending.filter _⟩

/-- A dictionary of the given fields, in which the last field of a repeated key wins. -/
def ofList (fields : List (String × α)) : Dict α :=
  fields.foldl (fun dict field => dict.insert field.1 field.2) empty

def mapValues (transform : α → β) (dict : Dict α) : Dict β :=
  ⟨dict.toList.map (fun field => (field.1, transform field.2)), by
    rw [List.pairwise_map]; exact dict.ascending⟩

/-- The list of a key, empty if it has none. -/
def listed (dict : Dict (List β)) (key : String) : List β :=
  (dict.get? key).getD []

/-- Put a value at the end of the list of a key. -/
def push (dict : Dict (List β)) (key : String) (value : β) : Dict (List β) :=
  dict.insert key (dict.listed key ++ [value])

theorem findField_insertField_self (key : String) (value : α) (fields : List (String × α)) :
    findField key (insertField key value fields) = some value := by
  induction fields with
  | nil => simp [insertField, findField]
  | cons head rest induction =>
      simp only [insertField]
      split
      · simp [findField]
      · split
        next greater =>
          have different : head.1 ≠ key :=
            fun same => String.lt_irrefl _ (same ▸ greater : head.1 < head.1)
          simp [findField, different, induction]
        next => simp [findField]

theorem findField_insertField_of_ne {key other : String} (different : key ≠ other) (value : α)
    (fields : List (String × α)) :
    findField other (insertField key value fields) = findField other fields := by
  induction fields with
  | nil => simp [insertField, findField, different]
  | cons head rest induction =>
      simp only [insertField]
      split
      · simp [findField, different]
      · split
        · simp [findField, induction]
        next notLess notGreater =>
          have same : key = head.1 :=
            String.le_antisymm (String.not_lt.mp notGreater) (String.not_lt.mp notLess)
          simp [findField, ← same, different]

@[simp] theorem get?_empty (key : String) : (empty : Dict α).get? key = none := rfl

@[simp] theorem get?_insert_self (dict : Dict α) (key : String) (value : α) :
    (dict.insert key value).get? key = some value :=
  findField_insertField_self key value dict.toList

theorem get?_insert_of_ne (dict : Dict α) {key other : String} (different : key ≠ other)
    (value : α) : (dict.insert key value).get? other = dict.get? other :=
  findField_insertField_of_ne different value dict.toList

theorem listed_push (dict : Dict (List β)) (key other : String) (value : β) :
    (dict.push key value).listed other =
      dict.listed other ++ if key = other then [value] else [] := by
  by_cases same : key = other
  · rw [if_pos same, ← same, listed, push, get?_insert_self, Option.getD_some]
  · rw [if_neg same, List.append_nil, listed, push, get?_insert_of_ne dict same, listed]

theorem findField_filter_ne (key other : String) (fields : List (String × α)) :
    findField other (fields.filter fun field => field.1 != key) =
      if other = key then none else findField other fields := by
  induction fields with
  | nil => simp [findField]
  | cons head rest induction =>
      by_cases same : head.1 = key <;> by_cases found : head.1 = other <;>
        grind [findField]

theorem get?_erase (dict : Dict α) (key other : String) :
    (dict.erase key).get? other = if other = key then none else dict.get? other :=
  findField_filter_ne key other dict.toList

theorem listed_erase_of_ne (dict : Dict (List β)) {key other : String} (different : other ≠ key) :
    (dict.erase key).listed other = dict.listed other := by
  rw [listed, get?_erase, if_neg different, listed]

theorem findField_map (transform : α → β) (key : String) (fields : List (String × α)) :
    findField key (fields.map fun field => (field.1, transform field.2)) =
      (findField key fields).map transform := by
  induction fields with
  | nil => rfl
  | cons head rest induction =>
      by_cases same : head.1 = key <;> simp [findField, same, induction]

theorem get?_mapValues (transform : α → β) (dict : Dict α) (key : String) :
    (dict.mapValues transform).get? key = (dict.get? key).map transform :=
  findField_map transform key dict.toList

theorem findField_eq_some_iff {key : String} {value : α} {fields : List (String × α)}
    (ascending : fields.Pairwise (fun left right => left.1 < right.1)) :
    findField key fields = some value ↔ (key, value) ∈ fields := by
  induction fields with
  | nil => simp [findField]
  | cons head rest induction =>
      have ⟨below, tail⟩ := List.pairwise_cons.mp ascending
      rw [findField, List.mem_cons]
      split
      next same =>
        subst same
        have absent : (head.1, value) ∉ rest := fun member =>
          String.lt_irrefl head.1 (below (head.1, value) member)
        simp [absent, Prod.ext_iff, eq_comm]
      next different =>
        have notHead : (key, value) ≠ head := fun same => different (by rw [← same])
        simp [notHead, induction tail]

theorem mem_of_findField {key : String} {value : α} {fields : List (String × α)}
    (found : findField key fields = some value) : (key, value) ∈ fields := by
  induction fields with
  | nil => cases found
  | cons head rest induction =>
      rw [findField] at found
      split at found
      next same =>
        cases found
        exact same ▸ List.mem_cons_self
      · exact List.mem_cons_of_mem _ (induction found)

/-- A look-up finds exactly the fields of the dictionary. -/
theorem get?_eq_some_iff {dict : Dict α} {key : String} {value : α} :
    dict.get? key = some value ↔ (key, value) ∈ dict.toList :=
  findField_eq_some_iff dict.ascending

theorem mem_keys_iff {dict : Dict α} {key : String} :
    key ∈ dict.keys ↔ ∃ value, dict.get? key = some value := by
  simp [keys, get?_eq_some_iff]

theorem ascending_keys (dict : Dict α) : dict.keys.Pairwise (· < ·) :=
  List.pairwise_map.mpr dict.ascending

theorem nodup_keys (dict : Dict α) : dict.keys.Nodup :=
  dict.ascending_keys.imp fun below => String.ne_of_lt below

/-! Insertion of many fields -/

def insertFields (inserted fields : List (String × α)) : List (String × α) :=
  fields.foldl (fun inserted field => insertField field.1 field.2 inserted) inserted

@[simp] theorem insertFields_nil (inserted : List (String × α)) :
    insertFields inserted [] = inserted := rfl

@[simp] theorem insertFields_cons (inserted : List (String × α)) (field : String × α)
    (fields : List (String × α)) : insertFields inserted (field :: fields) =
      insertFields (insertField field.1 field.2 inserted) fields := rfl

theorem ascending_insertFields {inserted : List (String × α)}
    (ascending : inserted.Pairwise (fun left right => left.1 < right.1))
    (fields : List (String × α)) :
    (insertFields inserted fields).Pairwise (fun left right => left.1 < right.1) := by
  induction fields generalizing inserted with
  | nil => exact ascending
  | cons field rest induction => exact induction (ascending_insertField ascending)

theorem mem_insertFields {inserted fields : List (String × α)} {field : String × α}
    (member : field ∈ insertFields inserted fields) : field ∈ inserted ∨ field ∈ fields := by
  induction fields generalizing inserted with
  | nil => exact .inl member
  | cons head rest induction =>
      rcases induction member with here | there
      · rcases mem_insertField here with same | earlier
        · exact .inr (by simp [same])
        · exact .inl earlier
      · exact .inr (List.mem_cons_of_mem _ there)

theorem insertField_eq_append {key : String} {fields : List (String × α)}
    (above : ∀ field ∈ fields, field.1 < key) (value : α) :
    insertField key value fields = fields ++ [(key, value)] := by
  induction fields with
  | nil => rfl
  | cons head rest induction =>
      have ⟨below, others⟩ := List.forall_mem_cons.mp above
      rw [insertField, if_neg (String.lt_asymm below), if_pos below, induction others]
      rfl

theorem insertFields_eq_append {inserted fields : List (String × α)}
    (ascending : (inserted ++ fields).Pairwise (fun left right => left.1 < right.1)) :
    insertFields inserted fields = inserted ++ fields := by
  induction fields generalizing inserted with
  | nil => simp
  | cons field rest induction =>
      have above : ∀ other ∈ inserted, other.1 < field.1 := fun other member =>
        (List.pairwise_append.mp ascending).2.2 other member field List.mem_cons_self
      rw [insertFields_cons, insertField_eq_append above, induction (by simpa using ascending)]
      simp

theorem findField_append (key : String) (left right : List (String × α)) :
    findField key (left ++ right) = (findField key left).or (findField key right) := by
  induction left with
  | nil => rfl
  | cons head rest induction =>
      by_cases same : head.1 = key <;> simp [findField, same, induction]

/-- Of the fields that are put in with one key, the last counts. -/
theorem findField_insertFields (key : String) (inserted fields : List (String × α)) :
    findField key (insertFields inserted fields) =
      (findField key fields.reverse).or (findField key inserted) := by
  induction fields generalizing inserted with
  | nil => rfl
  | cons head rest induction =>
      rw [insertFields_cons, induction, List.reverse_cons, findField_append, Option.or_assoc]
      by_cases same : head.1 = key
      · rw [same, findField_insertField_self]
        simp [findField, same]
      · rw [findField_insertField_of_ne same]
        simp [findField, same]

theorem perm_insertField {key : String} {fields : List (String × α)}
    (absent : ∀ field ∈ fields, field.1 ≠ key) (value : α) :
    (insertField key value fields).Perm ((key, value) :: fields) := by
  induction fields with
  | nil => exact .refl _
  | cons head rest induction =>
      have ⟨different, others⟩ := List.forall_mem_cons.mp absent
      rw [insertField]
      split
      · exact .refl _
      · split
        · exact ((induction others).cons head).trans (.swap _ _ _)
        next notLess notGreater =>
          exact absurd (String.le_antisymm (String.not_lt.mp notLess) (String.not_lt.mp notGreater))
            different

theorem perm_insertFields {inserted fields : List (String × α)}
    (distinct : (inserted ++ fields).Pairwise (fun left right => left.1 ≠ right.1)) :
    (insertFields inserted fields).Perm (inserted ++ fields) := by
  induction fields generalizing inserted with
  | nil => simp
  | cons field rest induction =>
      have absent : ∀ other ∈ inserted, other.1 ≠ field.1 := fun other member =>
        (List.pairwise_append.mp distinct).2.2 other member field List.mem_cons_self
      have moved := perm_insertField absent field.2
      have order : (insertField field.1 field.2 inserted ++ rest).Perm
          (inserted ++ field :: rest) :=
        (moved.append_right rest).trans List.perm_middle.symm
      have still := order.pairwise_iff (fun different => different.symm) |>.mpr distinct
      exact (induction still).trans order

theorem toList_ofList (fields : List (String × α)) :
    (ofList fields).toList = insertFields [] fields := by
  have general : ∀ dict : Dict α,
      (fields.foldl (fun dict field => dict.insert field.1 field.2) dict).toList =
        insertFields dict.toList fields := by
    induction fields with
    | nil => exact fun _ => rfl
    | cons field rest induction => exact fun dict => induction (dict.insert field.1 field.2)
  exact general empty

theorem ext {left right : Dict α} (same : left.toList = right.toList) : left = right := by
  cases left
  cases right
  cases same
  rfl

@[simp] theorem ofList_toList (dict : Dict α) : ofList dict.toList = dict :=
  ext ((toList_ofList _).trans (insertFields_eq_append (by simpa using dict.ascending)))

end Dict

end SealedCatalog
