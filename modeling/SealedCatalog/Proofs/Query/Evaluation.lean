import SealedCatalog.Query.Evaluation

/-! Induction over queries, and what queries hold of and find. -/

namespace SealedCatalog.Query

@[induction_eliminator]
theorem inductionOn {motive : Query → Prop}
    (all : ∀ parts, (∀ part ∈ parts, motive part) → motive (.all parts))
    (any : ∀ parts, (∀ part ∈ parts, motive part) → motive (.any parts))
    (not : ∀ part, motive part → motive (.not part))
    (mentions : ∀ text, motive (.mentions text)) (has : ∀ entry, motive (.has entry))
    (includes : ∀ entry text, motive (.includes entry text))
    (exactly : ∀ entry text, motive (.exactly entry text))
    (compare : ∀ entry relation target operand,
      motive (.compare entry relation target operand)) : ∀ query, motive query
  | .all parts => all parts fun part _ =>
      inductionOn all any not mentions has includes exactly compare part
  | .any parts => any parts fun part _ =>
      inductionOn all any not mentions has includes exactly compare part
  | .not part => not part (inductionOn all any not mentions has includes exactly compare part)
  | .mentions text => mentions text
  | .has entry => has entry
  | .includes entry text => includes entry text
  | .exactly entry text => exactly entry text
  | .compare entry relation target operand => compare entry relation target operand
termination_by query => sizeOf query
decreasing_by
  · have smaller := List.sizeOf_lt_of_mem ‹part ∈ parts›
    simp only [Query.all.sizeOf_spec]
    omega
  · have smaller := List.sizeOf_lt_of_mem ‹part ∈ parts›
    simp only [Query.any.sizeOf_spec]
    omega
  · simp only [Query.not.sizeOf_spec]
    omega

variable {configuration : Configuration} {pool : TagPool} {record : Record} {entry : Entry}

theorem allHold_eq_all (parts : List Query) :
    allHold configuration pool record parts =
      parts.all fun part => part.holds configuration pool record := by
  induction parts with
  | nil => rw [allHold, List.all_nil]
  | cons part rest induction => rw [allHold, List.all_cons, induction]

theorem anyHolds_eq_any (parts : List Query) :
    anyHolds configuration pool record parts =
      parts.any fun part => part.holds configuration pool record := by
  induction parts with
  | nil => rw [anyHolds, List.any_nil]
  | cons part rest induction => rw [anyHolds, List.any_cons, induction]

theorem holds_all_iff {parts : List Query} : (all parts).holds configuration pool record = true ↔
    ∀ part ∈ parts, part.holds configuration pool record = true := by
  rw [holds, allHold_eq_all, List.all_eq_true]

theorem holds_any_iff {parts : List Query} : (any parts).holds configuration pool record = true ↔
    ∃ part ∈ parts, part.holds configuration pool record = true := by
  rw [holds, anyHolds_eq_any, List.any_eq_true]

theorem holds_not_iff {part : Query} : part.not.holds configuration pool record = true ↔
    ¬ part.holds configuration pool record = true := by
  rw [holds, Bool.not_eq_true', Bool.not_eq_true]

/-- A comparison holds of a record with a value that does not count as none, if the value has a
key and the key relates to the target. -/
theorem holds_compare_iff {relation : Relation} {target operand : String} :
    (compare entry relation target operand).holds configuration pool record = true ↔
      record.hasEntry entry.name = true ∧
        ∃ key, SortKey.ofRecord entry record pool = some key ∧ relation.holds key target = true := by
  rw [holds, Record.satisfies, Bool.and_eq_true, SortKey.ofRecord]
  refine and_congr_right fun _ => ?_
  cases record.get? entry.name with
  | none => simp
  | some value => simp [Option.any_eq_true]

theorem mem_search_iff {query : Query} {records : Records} {id : String} :
    id ∈ query.search configuration pool records ↔
      ∃ record, records.get? id = some record ∧
        query.holds configuration pool record = true := by
  simp only [search, List.mem_map, List.mem_filter, Prod.exists, exists_and_right, exists_eq_right,
    Dict.get?_eq_some_iff]

end SealedCatalog.Query
