import SealedCatalog.Proofs.Query.Evaluation
import SealedCatalog.Proofs.Traversal
import SealedCatalog.Query.Command

/-! Queries that are made of others. Commands combine as sets of ids do: by intersection and union,
and by the complement among the ids of a catalog. A text that is asked of all entries is nearly the
union over the entries; it is also found in the comment of a rating that counts as no value. -/

namespace SealedCatalog

/-! Texts asked of all entries -/

/-- The text occurs in the comment of a rating of score zero, which counts as no value. -/
def Record.CommentsUnrated (record : Record) (entry : Entry) (text : String) : Prop :=
  entry.entryType = .rating ∧ ∃ comment,
    record.get? entry.name = some (.rating 0 (some comment)) ∧ Text.contains comment text = true

theorem Text.not_contains_empty {text : String} (nonempty : text ≠ "") :
    Text.contains "" text = false := by
  rw [contains, String.toList_empty, occursIn, List.isEmpty_eq_false_iff]
  exact fun empty => nonempty (String.toList_eq_nil_iff.mp empty)

/-- Of the values that count as none, only a rating can hold a text. -/
theorem EntryValue.matchesText_iff_of_isEmpty {value : EntryValue} {text : String}
    (nothing : value.isEmpty = true) (nonempty : text ≠ "") {entry : Entry} {pool : TagPool} :
    value.matchesText entry pool .part text = true ↔ entry.entryType = .rating ∧
      ∃ comment, value = .rating 0 (some comment) ∧ Text.contains comment text = true := by
  rcases entry with ⟨name, method, optional, kind⟩
  cases value with
  | string candidate =>
      have absent : candidate = "" := String.isEmpty_iff.mp nothing
      subst absent
      cases kind <;> simp [matchesText, TextMatch.holds, Text.not_contains_empty nonempty]
  | tags indices =>
      have absent : indices = [] := List.isEmpty_iff.mp nothing
      subst absent
      cases kind <;> simp [matchesText]
  | rating score comment =>
      have unrated : score = 0 := eq_of_beq nothing
      subst unrated
      cases kind <;> cases comment <;>
        simp [matchesText, TextMatch.holds, Entry.entryType, EntryKind.entryType]

namespace Query

variable {configuration : Configuration} {pool : TagPool} {record : Record}

/-- What an entry's value matches is what is asked of the entry alone, and the comment of a rating
that counts as none. -/
theorem any_matchesText_iff {text : String} (nonempty : text ≠ "") {entry : Entry} :
    (record.get? entry.name).any (·.matchesText entry pool .part text) = true ↔
      (includes entry text).holds configuration pool record = true ∨
        record.CommentsUnrated entry text := by
  rw [holds, Record.satisfies, Record.hasEntry, Record.CommentsUnrated]
  cases stored : record.get? entry.name with
  | none => simp
  | some value =>
      cases nothing : value.isEmpty with
      | true => simp [nothing, EntryValue.matchesText_iff_of_isEmpty nothing nonempty]
      | false =>
          have rated : ∀ comment, value ≠ .rating 0 comment := by
            intro comment same
            subst same
            cases nothing
          simp [nothing, rated]

/-- A text that is asked of all entries is found in what an entry that is asked alone has, or in the
comment of a rating that counts as no value. -/
theorem holds_mentions_iff {text : String} (nonempty : text ≠ "") :
    (mentions text).holds configuration pool record = true ↔
      (∃ entry ∈ configuration.entries,
        (includes entry text).holds configuration pool record = true) ∨
      ∃ entry ∈ configuration.entries, record.CommentsUnrated entry text := by
  rw [holds, Record.mentions, List.any_eq_true, ← exists_or]
  apply exists_congr
  intro entry
  rw [any_matchesText_iff nonempty, and_or_left]

/-- A rating without a score, and with a comment. -/
def unratedRecord : Record :=
  Record.empty.withEntry "stars" (.rating 0 (some "too late"))

def rated : Configuration :=
  .ofEntries [(Entry.rating "stars" 5).withOptional true]

theorem holds_mentions_late : "late" ≠ "" ∧
    (mentions "late").holds rated TagPool.empty unratedRecord = true :=
  ⟨by decide, (holds_mentions_iff (by decide)).mpr
    (.inr ⟨_, List.mem_cons_self, rfl, "too late", rfl, by decide⟩)⟩

/-- No entry alone is searched in the comment that the text is found in. -/
theorem not_holds_includes_late : "late" ≠ "" ∧
    (mentions "late").holds rated TagPool.empty unratedRecord = true ∧
      ∀ entry ∈ rated.entries,
        (includes entry "late").holds rated TagPool.empty unratedRecord = false := by
  decide

/-! Intersections, unions and complements -/

variable {records : Records} {id : String}

theorem mem_search_all_iff {parts : List Query} :
    id ∈ (all parts).search configuration pool records ↔
      id ∈ records.keys ∧ ∀ part ∈ parts, id ∈ part.search configuration pool records := by
  simp only [mem_search_iff, Dict.mem_keys_iff, holds_all_iff]
  constructor
  · intro ⟨record, stored, each⟩
    exact ⟨⟨record, stored⟩, fun part member => ⟨record, stored, each part member⟩⟩
  · intro ⟨⟨record, stored⟩, each⟩
    refine ⟨record, stored, fun part member => ?_⟩
    rcases each part member with ⟨same, again, holds⟩
    exact Option.some.inj (again.symm.trans stored) ▸ holds

theorem mem_search_any_iff {parts : List Query} :
    id ∈ (any parts).search configuration pool records ↔
      ∃ part ∈ parts, id ∈ part.search configuration pool records := by
  simp only [mem_search_iff, holds_any_iff]
  constructor
  · intro ⟨record, stored, part, member, holds⟩
    exact ⟨part, member, record, stored, holds⟩
  · intro ⟨part, member, record, stored, holds⟩
    exact ⟨record, stored, part, member, holds⟩

theorem mem_search_not_iff {part : Query} :
    id ∈ part.not.search configuration pool records ↔
      id ∈ records.keys ∧ id ∉ part.search configuration pool records := by
  simp only [mem_search_iff, Dict.mem_keys_iff, holds_not_iff]
  constructor
  · intro ⟨record, stored, fails⟩
    refine ⟨⟨record, stored⟩, fun ⟨same, again, holds⟩ => fails ?_⟩
    exact Option.some.inj (again.symm.trans stored) ▸ holds
  · intro ⟨⟨record, stored⟩, unfound⟩
    exact ⟨record, stored, fun holds => unfound ⟨record, stored, holds⟩⟩

theorem search_all_nil : (all []).search configuration pool records = records.keys := by
  simp [search, holds, allHold, Dict.keys]

theorem search_any_nil : (any []).search configuration pool records = [] := by
  simp [search, holds, anyHolds]

theorem ascending_search (query : Query) :
    (query.search configuration pool records).Pairwise (· < ·) :=
  List.pairwise_map.mpr (records.ascending.filter _)

/-! Combinations of commands -/

theorem ofCommand?_negated (configuration : Configuration) (command : String) :
    ofCommand? configuration ("!" ++ command) = (ofCommand? configuration command).map not := by
  rw [ofCommand?, ofCommand?, String.toList_append]
  rfl

theorem ofCommands?_eq_some_iff {commands : List String} {anySuffices : Bool} {query : Query} :
    ofCommands? configuration commands anySuffices = some query ↔
      ∃ parts, commands.mapM (ofCommand? configuration) = some parts ∧
        combine anySuffices parts = query :=
  Option.map_eq_some_iff

end Query

namespace CatalogData

/-- The command has a query, and this finds the id. -/
def Finds (data : CatalogData) (command id : String) : Prop :=
  ∃ query, Query.ofCommand? data.configuration command = some query ∧ id ∈ data.search query

open Query (ofCommand? ofCommands?)

/-- Commands have a combination exactly if each has a query. All of them find what each one finds,
any of them what one finds, and a negated command what the command does not find. Ids ascend. -/
theorem search_combines (data : CatalogData) :
    (∀ commands anySuffices,
      (ofCommands? data.configuration commands anySuffices).isSome = true ↔
        ∀ command ∈ commands, (ofCommand? data.configuration command).isSome = true) ∧
    (∀ commands query, ofCommands? data.configuration commands false = some query → ∀ id,
      id ∈ data.search query ↔
        id ∈ data.records.keys ∧ ∀ command ∈ commands, data.Finds command id) ∧
    (∀ commands query, ofCommands? data.configuration commands true = some query → ∀ id,
      id ∈ data.search query ↔ ∃ command ∈ commands, data.Finds command id) ∧
    (ofCommands? data.configuration [] false).map data.search = some data.records.keys ∧
    (ofCommands? data.configuration [] true).map data.search = some [] ∧
    (∀ command query, ofCommand? data.configuration command = some query →
      ∃ negated, ofCommand? data.configuration ("!" ++ command) = some negated ∧ ∀ id,
        id ∈ data.search negated ↔ id ∈ data.records.keys ∧ id ∉ data.search query) ∧
    ∀ query, (data.search query).Pairwise (· < ·) := by
  refine ⟨?_, ?_, ?_, ?_, ?_, ?_, ?_⟩
  · intro commands anySuffices
    rw [ofCommands?, Option.isSome_map, isSome_mapM_iff]
  · intro commands query combined id
    rcases Query.ofCommands?_eq_some_iff.mp combined with ⟨parts, compiled, rfl⟩
    exact Query.mem_search_all_iff.trans
      (and_congr_right fun _ => forall_mem_mapM_iff compiled)
  · intro commands query combined id
    rcases Query.ofCommands?_eq_some_iff.mp combined with ⟨parts, compiled, rfl⟩
    exact Query.mem_search_any_iff.trans (exists_mem_mapM_iff compiled)
  · exact congrArg some Query.search_all_nil
  · exact congrArg some Query.search_any_nil
  · intro command query compiled
    refine ⟨query.not, ?_, fun id => Query.mem_search_not_iff⟩
    rw [Query.ofCommand?_negated, compiled, Option.map_some]
  · exact fun query => query.ascending_search

/-- Three albums with their titles. -/
def albums : CatalogData :=
  [("a", "Blue Train"), ("b", "Blue Moon"), ("c", "Giant Steps")].foldl
    (fun data (id, title) => data.withRecord id (Record.empty.withEntry "title" (.string title)))
    (.new (.ofEntries [.string "title" .asString]))

theorem search_combines_albums :
    (∃ query, ofCommands? albums.configuration ["Blue", "!$title:Train"] false = some query ∧
      albums.search query = ["b"] ∧ albums.Finds "Blue" "b" ∧ albums.Finds "!$title:Train" "b") ∧
    albums.Finds "!Blue" "c" ∧
    ∃ query, ofCommands? albums.configuration ["Moon", "!Blue"] true = some query ∧
      "c" ∈ albums.search query := by
  have ⟨_, together, either, _, _, negated, _⟩ := albums.search_combines
  have found := (together ["Blue", "!$title:Train"] _ rfl "b").mp (by decide +kernel)
  have complement : albums.Finds "!Blue" "c" := by
    rcases negated "Blue" _ rfl with ⟨query, compiled, finds⟩
    exact ⟨query, compiled, (finds "c").mpr (by decide +kernel)⟩
  refine ⟨⟨_, rfl, by decide +kernel, found.2 _ ?_, found.2 _ ?_⟩, complement, _, rfl, ?_⟩
  · exact List.mem_cons_self
  · exact List.mem_cons_of_mem _ List.mem_cons_self
  · exact (either ["Moon", "!Blue"] _ rfl "c").mpr
      ⟨"!Blue", List.mem_cons_of_mem _ List.mem_cons_self, complement⟩

end CatalogData

end SealedCatalog
