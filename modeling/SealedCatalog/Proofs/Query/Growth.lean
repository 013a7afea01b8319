import SealedCatalog.Proofs.Query.Enclosing
import SealedCatalog.Proofs.Query.Evaluation
import SealedCatalog.Proofs.SortKey.Indices

/-! Queries while tags are registered. Texts of tags are found through indices, which keep their
tags, so that only comparisons of tags can change. Those compare the indices with as many digits as
the greatest one has, and change only where that number of digits does. -/

namespace SealedCatalog

/-- The number of digits of the greatest index of an entry's tags. -/
def TagPool.indexDigits (pool : TagPool) (entry : String) : Nat :=
  (Nat.toDigits 10 (pool.count entry - 1)).length

/-- All indices that the record has for an entry are those of tags. -/
def Record.Resolves (record : Record) (pool : TagPool) : Prop :=
  ∀ entry indices, record.get? entry = some (.tags indices) →
    ∀ index ∈ indices, (pool.resolve entry index).isSome = true

theorem any_eq_any_of_mem {α : Type} {elements : List α} {left right : α → Bool}
    (same : ∀ element ∈ elements, left element = right element) :
    elements.any left = elements.any right := by
  rw [Bool.eq_iff_iff, List.any_eq_true, List.any_eq_true]
  exact exists_congr fun element => and_congr_right fun member => by rw [same element member]

theorem all_eq_all_of_mem {α : Type} {elements : List α} {left right : α → Bool}
    (same : ∀ element ∈ elements, left element = right element) :
    elements.all left = elements.all right := by
  rw [Bool.eq_iff_iff, List.all_eq_true, List.all_eq_true]
  exact forall₂_congr fun element member => by rw [same element member]

namespace SortKey

theorem joinIndices_eq_of_digits {count grown : Nat}
    (steady : (Nat.toDigits 10 (grown - 1)).length = (Nat.toDigits 10 (count - 1)).length)
    (indices : List Nat) : joinIndices indices grown = joinIndices indices count := by
  rw [← String.toList_inj, toList_joinIndices, toList_joinIndices, steady]

/-- The key of a value changes with the tags only if the value is a list of indices and their width
changes. -/
theorem ofValue_eq_of_steady {entry : Entry} {pool extended : TagPool} {value : EntryValue}
    (steady : ∀ indices, entry.entryType = .tag → value = .tags indices →
      extended.indexDigits entry.name = pool.indexDigits entry.name) :
    ofValue entry value extended = ofValue entry value pool := by
  unfold ofValue
  split
  · rfl
  · rfl
  next _ indices isTag =>
    have tagEntry : entry.entryType = .tag := by rw [Entry.entryType, isTag]; rfl
    rw [encodeIndices, encodeIndices, joinIndices_eq_of_digits (steady indices tagEntry rfl)]
  · rfl

end SortKey

/-- A value whose indices have tags matches the same texts when the pool grows. -/
theorem EntryValue.matchesText_eq_of_extends {pool extended : TagPool}
    (grown : pool.Extends extended) {entry : Entry} {value : EntryValue}
    (resolved : ∀ indices, value = .tags indices →
      ∀ index ∈ indices, (pool.resolve entry.name index).isSome = true)
    (how : TextMatch) (text : String) :
    value.matchesText entry extended how text = value.matchesText entry pool how text := by
  unfold matchesText
  split
  · rfl
  next indices _ =>
    refine any_eq_any_of_mem fun index member => ?_
    rw [grown.resolve_eq (resolved indices rfl index member)]
  · rfl
  · rfl

namespace Query

/-- The query compares the entry in one of its parts. -/
inductive Compares (entry : Entry) : Query → Prop where
  | all {parts : List Query} {part : Query} (member : part ∈ parts) (inside : Compares entry part) :
      Compares entry (.all parts)
  | any {parts : List Query} {part : Query} (member : part ∈ parts) (inside : Compares entry part) :
      Compares entry (.any parts)
  | not {part : Query} (inside : Compares entry part) : Compares entry (.not part)
  | compare (relation : Relation) (target operand : String) :
      Compares entry (.compare entry relation target operand)

theorem any_get?_congr {record : Record} {name : String} {left right : EntryValue → Bool}
    (same : ∀ value, record.get? name = some value → left value = right value) :
    (record.get? name).any left = (record.get? name).any right := by
  cases found : record.get? name with
  | none => rfl
  | some value => exact same value found

/-- A query holds of a record under a larger pool as under the smaller one, if the record's indices
have tags and no width changes of indices that the query compares. -/
theorem holds_eq_of_extends {configuration : Configuration} {pool extended : TagPool}
    {record : Record} (grown : pool.Extends extended) (resolved : record.Resolves pool)
    {query : Query} (steady : ∀ entry indices, query.Compares entry → entry.entryType = .tag →
      record.get? entry.name = some (.tags indices) → indices ≠ [] →
        extended.indexDigits entry.name = pool.indexDigits entry.name) :
    query.holds configuration extended record = query.holds configuration pool record := by
  have matched : ∀ (entry : Entry) (how : TextMatch) (text : String) (value : EntryValue),
      record.get? entry.name = some value →
        value.matchesText entry extended how text = value.matchesText entry pool how text :=
    fun entry how text value found => EntryValue.matchesText_eq_of_extends grown
      (fun indices same => resolved entry.name indices (same ▸ found)) how text
  induction query with
  | all parts induction =>
      rw [holds, holds, allHold_eq_all, allHold_eq_all]
      exact all_eq_all_of_mem fun part member =>
        induction part member fun entry indices inside =>
          steady entry indices (.all member inside)
  | any parts induction =>
      rw [holds, holds, anyHolds_eq_any, anyHolds_eq_any]
      exact any_eq_any_of_mem fun part member =>
        induction part member fun entry indices inside =>
          steady entry indices (.any member inside)
  | not part induction =>
      rw [holds, holds, induction fun entry indices inside => steady entry indices (.not inside)]
  | mentions text =>
      rw [holds, holds, Record.mentions, Record.mentions]
      exact any_eq_any_of_mem fun entry _ => any_get?_congr (matched entry .part text)
  | has entry => rw [holds, holds]
  | includes entry text =>
      rw [holds, holds, Record.satisfies, Record.satisfies,
        any_get?_congr (matched entry .part text)]
  | exactly entry text =>
      rw [holds, holds, Record.satisfies, Record.satisfies,
        any_get?_congr (matched entry .whole text)]
  | compare entry relation target operand =>
      rw [holds, holds, Record.satisfies, Record.satisfies]
      cases present : record.hasEntry entry.name with
      | false => rfl
      | true =>
          refine congrArg (true && ·) (any_get?_congr fun value found => ?_)
          have something : value.isEmpty = false := by
            simpa [Record.hasEntry, found] using present
          rw [SortKey.ofValue_eq_of_steady fun indices isTag same => ?_]
          subst same
          exact steady entry indices (.compare relation target operand) isTag found
            (by simpa [EntryValue.isEmpty] using something)

/-- Registering tags changes what a query holds of only if the query compares a tag entry that the
record has tags for, and the greatest index of that entry's tags gets more digits. -/
theorem holds_registerAll {configuration : Configuration} {pool : TagPool} {record : Record}
    (resolved : record.Resolves pool) (registrations : List (String × List String))
    {query : Query} (steady : ∀ entry indices, query.Compares entry → entry.entryType = .tag →
      record.get? entry.name = some (.tags indices) → indices ≠ [] →
        (pool.registerAll registrations).indexDigits entry.name = pool.indexDigits entry.name) :
    query.holds configuration (pool.registerAll registrations) record =
      query.holds configuration pool record :=
  holds_eq_of_extends (TagPool.extends_registerAll pool registrations) resolved steady

def genre : Entry := .tag "genre" .asString false

/-- A pool with one-letter genres. -/
def genres (letters : String) : TagPool :=
  .ofEntries [(genre.name, letters.toList.map fun letter => letter.toString)]

def genreRecord (index : Nat) : Record :=
  Record.empty.withEntry genre.name (.tags [index])

theorem resolves_genreRecord {pool : TagPool} {index : Nat}
    (inside : (pool.resolve genre.name index).isSome = true) :
    (genreRecord index).Resolves pool := by
  intro entry indices stored position member
  by_cases same : genre.name = entry
  · subst same
    rw [genreRecord, Record.withEntry, Record.get?, Dict.get?_insert_self] at stored
    cases stored
    rw [List.mem_singleton] at member
    rwa [member]
  · rw [genreRecord, Record.withEntry, Record.get?, Dict.get?_insert_of_ne _ same] at stored
    cases stored

theorem holds_registerAll_third_genre :
    (ofCommand? (.ofEntries [genre]) "!$genre<1" = some (.not (.compare genre .less "1" "1")) ∧
      (genreRecord 1).Resolves (genres "ab") ∧
      ((genres "ab").registerAll [("genre", ["c"])]).indexDigits "genre" =
        (genres "ab").indexDigits "genre") ∧
      (Query.not (.compare genre .less "1" "1")).holds (.ofEntries [genre])
          ((genres "ab").registerAll [("genre", ["c"])]) (genreRecord 1) =
        (Query.not (.compare genre .less "1" "1")).holds (.ofEntries [genre]) (genres "ab")
          (genreRecord 1) := by
  have resolved : (genreRecord 1).Resolves (genres "ab") := resolves_genreRecord (by decide)
  have steady : ((genres "ab").registerAll [("genre", ["c"])]).indexDigits "genre" =
      (genres "ab").indexDigits "genre" := by decide +kernel
  refine ⟨⟨rfl, resolved, steady⟩, holds_registerAll resolved _ ?_⟩
  rintro entry indices (_ | _ | ⟨⟨⟩⟩) _ _ _
  exact steady

/-- With the eleventh genre, the index that was found as 5 counts as 05. -/
theorem not_holds_eleventh_genre :
    ofCommand? (.ofEntries [genre]) "$genre@5" = some (.compare genre .equal "5" "5") ∧
      (genreRecord 5).Resolves (genres "abcdefghij") ∧
      (Query.compare genre .equal "5" "5").holds (.ofEntries [genre]) (genres "abcdefghij")
        (genreRecord 5) = true ∧
      (Query.compare genre .equal "5" "5").holds (.ofEntries [genre])
        ((genres "abcdefghij").registerAll [("genre", ["k"])]) (genreRecord 5) = false :=
  ⟨rfl, resolves_genreRecord (by decide +kernel), by decide +kernel,
    by decide +kernel⟩

end Query

end SealedCatalog
