import Mathlib.Data.List.Nodup
import SealedCatalog.Catalog
import SealedCatalog.Proofs.Dict

/-! What the diagnosis of a catalog lists. A value of a unique entry clashes when another record
holds it too. The groups of the records by value contain every clash and nothing else, and what they
tell is used up by the walk over the records, so each record is listed with the problems that it has
by itself and one duplication for each entry with a clash. -/

namespace SealedCatalog

namespace Record

theorem text?_eq_some_iff {record : Record} {entry text : String} :
    record.text? entry = some text ↔ record.get? entry = some (.string text) ∧ text ≠ "" := by
  unfold text?
  split
  next found held =>
    rw [held, Option.some.injEq, EntryValue.string.injEq, Option.ite_none_left_eq_some,
      String.isEmpty_iff, Option.some.injEq]
    exact ⟨fun ⟨filled, same⟩ => ⟨same, same ▸ filled⟩, fun ⟨same, filled⟩ => ⟨same ▸ filled, same⟩⟩
  next other =>
    simp only [reduceCtorEq, false_iff, not_and]
    exact fun held => absurd held (other text)

end Record

namespace Records

variable {records : Records} {id : String} {configuration : Configuration} {entry : Entry}
  {entries others : List Entry} {reasons : List RecordProblem}

/-! Clashes -/

/-- The record of the id holds the text for an entry, and the text is not empty. -/
def HoldsText (records : Records) (id entry text : String) : Prop :=
  ∃ record, records.get? id = some record ∧ record.get? entry = some (.string text) ∧ text ≠ ""

/-- The entry is unique, and another record holds the text that the record of the id holds. -/
def Clashes (records : Records) (id : String) (entry : Entry) (text : String) : Prop :=
  entry.isUnique = true ∧ records.HoldsText id entry.name text ∧
    ∃ other, other ≠ id ∧ records.HoldsText other entry.name text

/-- One duplication for each of the entries in which the record of the id clashes. -/
inductive ClashReasons (records : Records) (id : String) : List Entry → List RecordProblem → Prop
  | nil : ClashReasons records id [] []
  | clash {entry : Entry} {text : String} {rest : List Entry} {reasons : List RecordProblem} :
      records.Clashes id entry text → ClashReasons records id rest reasons →
      ClashReasons records id (entry :: rest) (.duplicatedValue entry.name text :: reasons)
  | clear {entry : Entry} {rest : List Entry} {reasons : List RecordProblem} :
      (∀ text, ¬ records.Clashes id entry text) → ClashReasons records id rest reasons →
      ClashReasons records id (entry :: rest) reasons

theorem HoldsText.unique {entry text other : String} (first : records.HoldsText id entry text)
    (second : records.HoldsText id entry other) : text = other := by
  rcases first with ⟨record, stored, held, _⟩
  rcases second with ⟨_, again, likewise, _⟩
  cases stored.symm.trans again
  cases held.symm.trans likewise
  rfl

theorem Clashes.unique {text other : String} (first : records.Clashes id entry text)
    (second : records.Clashes id entry other) : text = other :=
  first.2.1.unique second.2.1

theorem Clashes.exists_get? {text : String} (clash : records.Clashes id entry text) :
    ∃ record, records.get? id = some record := by
  rcases clash.2.1 with ⟨record, stored, _⟩
  exact ⟨record, stored⟩

namespace ClashReasons

theorem append {later : List RecordProblem} (first : records.ClashReasons id entries reasons)
    (second : records.ClashReasons id others later) :
    records.ClashReasons id (entries ++ others) (reasons ++ later) := by
  induction first with
  | nil => exact second
  | clash clashes _ induction => exact .clash clashes induction
  | clear never _ induction => exact .clear never induction

theorem unique {again : List RecordProblem} (first : records.ClashReasons id entries reasons)
    (second : records.ClashReasons id entries again) : reasons = again := by
  induction first generalizing again with
  | nil =>
      cases second
      rfl
  | clash clashes _ induction =>
      cases second with
      | clash clash rest => rw [clashes.unique clash, induction rest]
      | clear never _ => exact absurd clashes (never _)
  | clear never _ induction =>
      cases second with
      | clash clash _ => exact absurd clash (never _)
      | clear _ rest => exact induction rest

/-- Entries that are not unique give no reasons. -/
theorem of_filter (reasonsOf : records.ClashReasons id (entries.filter Entry.isUnique) reasons) :
    records.ClashReasons id entries reasons := by
  induction entries generalizing reasons with
  | nil => exact reasonsOf
  | cons entry rest induction =>
      rw [List.filter_cons] at reasonsOf
      split at reasonsOf
      next unique =>
        cases reasonsOf with
        | clash clashes others => exact .clash clashes (induction others)
        | clear never others => exact .clear never (induction others)
      next shared => exact .clear (fun text clash => shared clash.1) (induction reasonsOf)

theorem ne_nil_iff (reasonsOf : records.ClashReasons id entries reasons) :
    reasons ≠ [] ↔ ∃ entry ∈ entries, ∃ text, records.Clashes id entry text := by
  induction reasonsOf with
  | nil => simp
  | clash clashes _ _ =>
      exact iff_of_true (List.cons_ne_nil _ _) ⟨_, List.mem_cons_self, _, clashes⟩
  | clear never _ induction => simp [induction, never]

end ClashReasons

/-! Records grouped by the texts that they hold -/

/-- The ids of the fields whose records hold a text, in order. -/
def idsHolding (entry text : String) (fields : List (String × Record)) : List String :=
  (fields.filter fun field => field.2.text? entry == some text).map (·.1)

theorem mem_idsHolding_iff {entry text : String} :
    id ∈ idsHolding entry text records.toList ↔ records.HoldsText id entry text := by
  simp only [idsHolding, HoldsText, List.mem_map, List.mem_filter, beq_iff_eq,
    Record.text?_eq_some_iff, Prod.exists, exists_eq_right, ← Dict.get?_eq_some_iff,
    exists_and_right]

theorem nodup_idsHolding (records : Records) (entry text : String) :
    (idsHolding entry text records.toList).Nodup :=
  records.nodup_keys.sublist (List.filter_sublist.map _)

/-- A value that a record holds is held more than once just when another record holds it. -/
theorem one_lt_length_idsHolding_iff {entry text : String}
    (held : records.HoldsText id entry text) :
    1 < (idsHolding entry text records.toList).length ↔
      ∃ other, other ≠ id ∧ records.HoldsText other entry text := by
  have listed : id ∈ idsHolding entry text records.toList := mem_idsHolding_iff.mpr held
  calc
    _ ↔ 0 < ((idsHolding entry text records.toList).erase id).length := by
      rw [List.length_erase_of_mem listed]
      omega
    _ ↔ ∃ other, other ∈ (idsHolding entry text records.toList).erase id :=
      List.length_pos_iff_exists_mem
    _ ↔ _ := by
      simp only [(nodup_idsHolding records entry text).mem_erase_iff, mem_idsHolding_iff]

theorem listed_addHolder (entry text : String) (holders : Dict (List String))
    (field : String × Record) : (addHolder entry holders field).listed text =
      holders.listed text ++ idsHolding entry text [field] := by
  rw [addHolder]
  cases held : field.2.text? entry with
  | none => simp [idsHolding, held]
  | some found =>
      rw [Dict.listed_push]
      by_cases same : found = text <;> simp [idsHolding, held, same]

theorem listed_foldl_addHolder (entry text : String) (holders : Dict (List String))
    (fields : List (String × Record)) : (fields.foldl (addHolder entry) holders).listed text =
      holders.listed text ++ idsHolding entry text fields := by
  induction fields generalizing holders with
  | nil => exact (List.append_nil _).symm
  | cons field rest induction =>
      rw [List.foldl_cons, induction, listed_addHolder, List.append_assoc]
      have split : idsHolding entry text (field :: rest) =
          idsHolding entry text [field] ++ idsHolding entry text rest := by
        rw [idsHolding, idsHolding, idsHolding, ← List.map_append, ← List.filter_append]
        rfl
      rw [split]

theorem isFilled_foldl_addHolder {entry : String} {holders : Dict (List String)}
    (filled : holders.IsFilled) (fields : List (String × Record)) :
    (fields.foldl (addHolder entry) holders).IsFilled := by
  induction fields generalizing holders with
  | nil => exact filled
  | cons field rest induction =>
      apply induction
      rw [addHolder]
      split
      next text _ => exact filled.push text field.1
      next => exact filled

/-- The groups are the texts that more than one record holds, each with all of its holders. -/
theorem mem_sharedTexts_iff {entry text : String} {ids : List String} :
    (text, ids) ∈ records.sharedTexts entry ↔
      1 < ids.length ∧ ids = idsHolding entry text records.toList := by
  have filled : (records.holders entry).IsFilled :=
    isFilled_foldl_addHolder Dict.isFilled_empty records.toList
  have listed : (records.holders entry).listed text = idsHolding entry text records.toList :=
    listed_foldl_addHolder entry text Dict.empty records.toList
  rw [sharedTexts, List.mem_filter, ← Dict.get?_eq_some_iff, filled.get?_eq_some_iff, listed,
    decide_eq_true_iff]
  constructor
  · intro ⟨⟨_, same⟩, several⟩
    exact ⟨several, same⟩
  · intro ⟨several, same⟩
    exact ⟨⟨List.ne_nil_of_length_pos (Nat.zero_lt_of_lt several), same⟩, several⟩

theorem nodup_sharedTexts (records : Records) (entry : String) :
    (records.sharedTexts entry).Nodup :=
  (List.Nodup.of_map _ (records.holders entry).nodup_keys).filter _

/-! What the groups tell -/

/-- What an id is told by the groups of an entry. -/
def toldBy (entry id : String) (groups : List (String × List String)) : List RecordProblem :=
  groups.flatMap fun group => List.replicate (group.2.count id) (.duplicatedValue entry group.1)

theorem listed_tellGroup (entry : String) (told : Dict (List RecordProblem))
    (group : String × List String) : (tellGroup entry told group).listed id =
      told.listed id ++ List.replicate (group.2.count id) (.duplicatedValue entry group.1) := by
  rcases group with ⟨text, ids⟩
  rw [tellGroup]
  induction ids generalizing told with
  | nil => exact (List.append_nil _).symm
  | cons other rest induction =>
      rw [List.foldl_cons, induction, Dict.listed_push, List.append_assoc]
      by_cases same : other = id
      · rw [if_pos same, same, List.count_cons_self, List.replicate_succ]
        rfl
      · rw [if_neg same, List.count_cons_of_ne same, List.nil_append]

theorem listed_foldl_tellGroup (entry : String) (told : Dict (List RecordProblem))
    (groups : List (String × List String)) : (groups.foldl (tellGroup entry) told).listed id =
      told.listed id ++ toldBy entry id groups := by
  induction groups generalizing told with
  | nil => exact (List.append_nil _).symm
  | cons group rest induction =>
      rw [List.foldl_cons, induction, listed_tellGroup, List.append_assoc]
      rfl

/-- The groups of an entry have the id of a record only in that of the text it holds. -/
theorem holdsText_of_mem_sharedTexts {entry : String} {group : String × List String}
    (shared : group ∈ records.sharedTexts entry) (member : id ∈ group.2) :
    records.HoldsText id entry group.1 := by
  rcases mem_sharedTexts_iff.mp shared with ⟨_, same⟩
  exact mem_idsHolding_iff.mp (same ▸ member)

/-- The group of the text that a record holds tells it, and no other group does. -/
theorem toldBy_of_clashes {text : String} (clash : records.Clashes id entry text) :
    toldBy entry.name id (records.sharedTexts entry.name) = [.duplicatedValue entry.name text] := by
  rcases clash with ⟨_, held, elsewhere⟩
  let ids := idsHolding entry.name text records.toList
  have shared : (text, ids) ∈ records.sharedTexts entry.name :=
    mem_sharedTexts_iff.mpr ⟨(one_lt_length_idsHolding_iff held).mpr elsewhere, rfl⟩
  have once : ids.count id = 1 :=
    List.count_eq_one_of_mem (nodup_idsHolding records entry.name text)
      (mem_idsHolding_iff.mpr held)
  have silent : ∀ groups, (∀ group ∈ groups, group ∈ records.sharedTexts entry.name) →
      (text, ids) ∉ groups → toldBy entry.name id groups = [] := by
    intro groups among absent
    rw [toldBy, List.flatMap_eq_nil_iff]
    intro ⟨other, holders⟩ member
    rw [List.replicate_eq_nil_iff, List.count_eq_zero]
    intro inside
    have listed := among (other, holders) member
    cases (holdsText_of_mem_sharedTexts listed inside).unique held
    cases (mem_sharedTexts_iff.mp listed).2
    exact absent member
  have apart := nodup_sharedTexts records entry.name
  rcases List.append_of_mem shared with ⟨before, after, split⟩
  rw [split] at silent apart ⊢
  have absent : (text, ids) ∉ before ++ after := (List.nodup_middle.mp apart).notMem
  have none := silent (before ++ after) (by simp +contextual [or_imp]) absent
  rw [toldBy, List.flatMap_append] at none
  rcases List.append_eq_nil_iff.mp none with ⟨first, last⟩
  rw [toldBy, List.flatMap_append, List.flatMap_cons, first, last, once]
  rfl

theorem toldBy_of_not_clashes (unique : entry.isUnique = true)
    (never : ∀ text, ¬ records.Clashes id entry text) :
    toldBy entry.name id (records.sharedTexts entry.name) = [] := by
  rw [toldBy, List.flatMap_eq_nil_iff]
  intro group member
  rw [List.replicate_eq_nil_iff, List.count_eq_zero]
  intro inside
  have held := holdsText_of_mem_sharedTexts member inside
  rcases mem_sharedTexts_iff.mp member with ⟨several, same⟩
  rw [same] at several
  exact never group.1 ⟨unique, held, (one_lt_length_idsHolding_iff held).mp several⟩

/-- Telling the groups of one more entry adds the reason of that entry. -/
theorem ClashReasons.tellEntry {told : Dict (List RecordProblem)}
    (before : records.ClashReasons id entries (told.listed id)) (unique : entry.isUnique = true) :
    records.ClashReasons id (entries ++ [entry]) ((records.tellEntry told entry).listed id) := by
  rw [Records.tellEntry, listed_foldl_tellGroup]
  apply before.append
  by_cases clashes : ∃ text, records.Clashes id entry text
  · rcases clashes with ⟨text, clash⟩
    rw [toldBy_of_clashes clash]
    exact .clash clash .nil
  · have never := not_exists.mp clashes
    rw [toldBy_of_not_clashes unique never]
    exact .clear never .nil

theorem ClashReasons.foldl_tellEntry {told : Dict (List RecordProblem)}
    (before : records.ClashReasons id entries (told.listed id))
    (unique : ∀ entry ∈ others, entry.isUnique = true) :
    records.ClashReasons id (entries ++ others)
      ((others.foldl records.tellEntry told).listed id) := by
  induction others generalizing entries told with
  | nil => rwa [List.append_nil]
  | cons entry rest induction =>
      have ⟨first, later⟩ := List.forall_mem_cons.mp unique
      rw [List.append_cons]
      exact induction (before.tellEntry first) later

/-- What an id is told in the end are the reasons that its clashes give. -/
theorem clashReasons_duplicated (records : Records) (configuration : Configuration) (id : String) :
    records.ClashReasons id configuration.entries
      ((records.duplicated configuration).listed id) := by
  have start : records.ClashReasons id [] ((Dict.empty : Dict (List RecordProblem)).listed id) :=
    .nil
  exact .of_filter (start.foldl_tellEntry fun entry member => (List.mem_filter.mp member).2)

theorem isFilled_tellEntry {told : Dict (List RecordProblem)} (filled : told.IsFilled)
    (entry : Entry) : (records.tellEntry told entry).IsFilled := by
  have each : ∀ (group : String × List String) (told : Dict (List RecordProblem)),
      told.IsFilled → (tellGroup entry.name told group).IsFilled := by
    intro group told filled
    exact List.foldlRecOn group.2 _ filled fun told filled id _ => filled.push id _
  exact List.foldlRecOn _ _ filled fun told filled group _ => each group told filled

theorem isFilled_duplicated (records : Records) (configuration : Configuration) :
    (records.duplicated configuration).IsFilled :=
  List.foldlRecOn _ _ Dict.isFilled_empty fun _ filled entry _ => isFilled_tellEntry filled entry

theorem get?_duplicated_eq_some_iff : (records.duplicated configuration).get? id = some reasons ↔
    reasons ≠ [] ∧ records.ClashReasons id configuration.entries reasons := by
  have told := clashReasons_duplicated records configuration id
  rw [(isFilled_duplicated records configuration).get?_eq_some_iff]
  constructor
  · intro ⟨reason, same⟩
    exact ⟨reason, same ▸ told⟩
  · intro ⟨reason, reasonsOf⟩
    exact ⟨reason, reasonsOf.unique told⟩

end Records

namespace Catalog

variable {catalog : Catalog} {id : String} {reasons : List RecordProblem}

/-! The walk over the records -/

/-- What is used up with one record is told of no other, as long as the ids differ. -/
theorem diagnoseFields_eq {configuration : Configuration} {told : Dict (List RecordProblem)}
    {fields : List (String × Record)} (distinct : (fields.map (·.1)).Nodup) :
    diagnoseFields configuration told fields =
      (fields.map fun field =>
        (field.1, field.2.problems configuration ++ told.listed field.1)).filter
          fun found => !found.2.isEmpty := by
  induction fields generalizing told with
  | nil => rfl
  | cons field rest induction =>
      rcases field with ⟨id, record⟩
      have ⟨absent, others⟩ := List.nodup_cons.mp distinct
      have kept : ∀ field ∈ rest, (told.erase id).listed field.1 = told.listed field.1 := by
        intro field member
        apply Dict.listed_erase_of_ne told
        intro same
        exact absent (List.mem_map.mpr ⟨field, member, same⟩)
      have later : rest.map (fun field => (field.1, field.2.problems configuration ++
            (told.erase id).listed field.1)) =
          rest.map fun field => (field.1, field.2.problems configuration ++ told.listed field.1) :=
        List.map_congr_left fun field member => by rw [kept field member]
      rw [diagnoseFields, induction others, later, List.map_cons, List.filter_cons]
      cases (record.problems configuration ++ told.listed id).isEmpty <;> rfl

theorem diagnose_eq (catalog : Catalog) :
    let configuration := catalog.data.configuration
    let records := catalog.data.records
    catalog.diagnose = (records.toList.map fun field => (field.1, field.2.problems configuration ++
      (records.duplicated configuration).listed field.1)).filter fun found => !found.2.isEmpty :=
  diagnoseFields_eq catalog.data.records.nodup_keys

theorem mem_diagnose_iff : (id, reasons) ∈ catalog.diagnose ↔
    ∃ record, catalog.data.records.get? id = some record ∧
      reasons = record.problems catalog.data.configuration ++
        (catalog.data.records.duplicated catalog.data.configuration).listed id ∧
      reasons ≠ [] := by
  simp only [diagnose_eq, List.mem_filter, List.mem_map, Prod.exists, Prod.mk.injEq,
    Dict.get?_eq_some_iff]
  grind

theorem ascending_diagnose (catalog : Catalog) :
    (catalog.diagnose.map (·.1)).Pairwise (· < ·) := by
  rw [diagnose_eq]
  refine List.Pairwise.sublist (List.filter_sublist.map _) ?_
  rw [List.map_map]
  exact catalog.data.records.ascending_keys

/-- The diagnosis lists each record with a reason once, by ascending ids: a record that has a
problem by itself or clashes in some entry, and no other. The reasons of a record are its problems,
then one duplication for each entry with a clash in the order of the entries. Everything that is
found among duplicated values is listed. -/
theorem diagnose_exact (catalog : Catalog) :
    (catalog.diagnose.map (·.1)).Pairwise (· < ·) ∧
    (∀ id, id ∈ catalog.diagnose.map (·.1) ↔
      ∃ record, catalog.data.records.get? id = some record ∧
        (record.problems catalog.data.configuration ≠ [] ∨
          ∃ entry ∈ catalog.data.configuration.entries, ∃ text,
            catalog.data.records.Clashes id entry text)) ∧
    (∀ id reasons, (id, reasons) ∈ catalog.diagnose ↔
      ∃ record clashes, catalog.data.records.get? id = some record ∧
        catalog.data.records.ClashReasons id catalog.data.configuration.entries clashes ∧
        reasons = record.problems catalog.data.configuration ++ clashes ∧ reasons ≠ []) ∧
    ∀ id clashes,
      (catalog.data.records.duplicated catalog.data.configuration).get? id = some clashes ↔
      clashes ≠ [] ∧ (∃ record, catalog.data.records.get? id = some record) ∧
        catalog.data.records.ClashReasons id catalog.data.configuration.entries clashes := by
  have told := catalog.data.records.clashReasons_duplicated catalog.data.configuration
  refine ⟨ascending_diagnose catalog, fun id => ?_, fun id reasons => ?_, fun id clashes => ?_⟩
  · simp only [List.mem_map, Prod.exists, exists_and_right, exists_eq_right, mem_diagnose_iff]
    rw [← (told id).ne_nil_iff]
    constructor
    · intro ⟨reasons, record, stored, same, reason⟩
      refine ⟨record, stored, ?_⟩
      simpa [same, or_iff_not_imp_left] using reason
    · intro ⟨record, stored, reason⟩
      exact ⟨_, record, stored, rfl, by simpa [or_iff_not_imp_left] using reason⟩
  · rw [mem_diagnose_iff]
    constructor
    · intro ⟨record, stored, same, reason⟩
      exact ⟨record, _, stored, told id, same, reason⟩
    · intro ⟨record, clashes, stored, listed, same, reason⟩
      rw [listed.unique (told id)] at same
      exact ⟨record, stored, same, reason⟩
  · rw [Records.get?_duplicated_eq_some_iff]
    constructor
    · intro ⟨reason, listed⟩
      rcases listed.ne_nil_iff.mp reason with ⟨entry, _, text, clash⟩
      exact ⟨reason, clash.exists_get?, listed⟩
    · intro ⟨reason, _, listed⟩
      exact ⟨reason, listed⟩

end Catalog

end SealedCatalog
