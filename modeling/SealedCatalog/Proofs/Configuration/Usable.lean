import Mathlib.Data.List.Nodup
import SealedCatalog.Configuration.Check

/-! Schemas that can be used. These are the schemas without problems, and a name that is repeated is
one problem, however often it recurs. The pass over the names keeps two sets of them, and from what
is in these it can be told whether a name has occurred before, and whether more than once. -/

namespace SealedCatalog

/-- Some character of the text is not blank. -/
def Text.HasNonblank (text : String) : Prop :=
  ∃ char ∈ text.toList, isBlank char = false

theorem Text.isAllBlank_eq_false_iff {text : String} :
    isAllBlank text = false ↔ HasNonblank text := by
  rw [isAllBlank, List.all_eq_false]
  simp only [HasNonblank, Bool.not_eq_true]

/-- A rating has two to ten scores, and no hints or one for each score. -/
def EntryKind.IsUsable : EntryKind → Prop
  | rating maximumScore hints => 2 ≤ maximumScore.toNat ∧ maximumScore.toNat ≤ 10 ∧
      ∀ labels ∈ hints, labels.length = maximumScore.toNat
  | _ => True

/-- Images have a size if there are any, all names say something and differ, all ratings are usable,
and there is something to store. -/
structure Configuration.IsUsable (configuration : Configuration) : Prop where
  sized : ∀ size ∈ configuration.imageSize, 0 < size.width ∧ 0 < size.height
  named : ∀ entry ∈ configuration.entries, Text.HasNonblank entry.name
  distinct : (configuration.entries.map Entry.name).Nodup
  rated : ∀ entry ∈ configuration.entries, entry.kind.IsUsable
  storing : configuration.entries ≠ [] ∨ configuration.imageSize ≠ none

/-- The name that the problem tells to be repeated. -/
def ConfigurationProblem.repeated? : ConfigurationProblem → Option String
  | repeatedName name => some name
  | _ => none

namespace Configuration

open ConfigurationProblem

variable {names : NamesMet} {earlier : List String} {position : Nat} {name : String} {entry : Entry}
  {entries : List Entry}

/-! ## Problems of one entry -/

/-- The names that say something are used once they have occurred, and reported once they have
occurred twice. -/
structure NamesMet.Tracks (names : NamesMet) (earlier : List String) : Prop where
  used : ∀ name, Text.isAllBlank name = false → (name ∈ names.used ↔ 1 ≤ earlier.count name)
  reported : ∀ name, Text.isAllBlank name = false →
    (name ∈ names.reported ↔ 2 ≤ earlier.count name)

theorem NamesMet.tracks_nil : NamesMet.Tracks ⟨[], []⟩ [] where
  used := by simp
  reported := by simp

/-- The second occurrence of a name is the one that is reported. -/
theorem NamesMet.Tracks.problems_eq (tracks : names.Tracks earlier) :
    (nameProblems names position name).1 =
      if Text.isAllBlank name then [emptyName position]
      else if earlier.count name = 1 then [repeatedName name]
      else [] := by
  rw [nameProblems]
  cases blank : Text.isAllBlank name with
  | true => rfl
  | false =>
      have used := tracks.used name blank
      have reported := tracks.reported name blank
      simp only [List.contains_iff_mem, used, reported]
      grind

theorem NamesMet.Tracks.next (tracks : names.Tracks earlier) (position : Nat) (name : String) :
    (nameProblems names position name).2.Tracks (name :: earlier) := by
  rw [nameProblems]
  cases blank : Text.isAllBlank name with
  | true =>
      have other : ∀ {found}, Text.isAllBlank found = false → name ≠ found := by
        intro found named same
        rw [same, named] at blank
        cases blank
      refine ⟨fun found named => ?_, fun found named => ?_⟩
      · rw [List.count_cons_of_ne (other named)]
        exact tracks.used found named
      · rw [List.count_cons_of_ne (other named)]
        exact tracks.reported found named
  | false =>
      have used := tracks.used
      have reported := tracks.reported
      simp only [List.contains_iff_mem, used name blank, reported name blank]
      constructor <;> grind

theorem nameProblems_eq_nil_iff (tracks : names.Tracks earlier) :
    (nameProblems names position name).1 = [] ↔
      Text.HasNonblank name ∧ earlier.count name ≠ 1 := by
  rw [tracks.problems_eq, ← Text.isAllBlank_eq_false_iff]
  split
  next blank => simp [blank]
  next named =>
    rw [Bool.not_eq_true] at named
    split <;> simp_all

/-- A name is told to be repeated where it occurs for the second time. -/
theorem repeated_nameProblems (tracks : names.Tracks earlier) :
    (nameProblems names position name).1.filterMap repeated? =
      if Text.isAllBlank name = false ∧ earlier.count name = 1 then [name] else [] := by
  rw [tracks.problems_eq]
  cases Text.isAllBlank name with
  | true => simp [repeated?]
  | false => by_cases second : earlier.count name = 1 <;> simp [second, repeated?]

theorem outOfRange_iff {maximumScore : UInt32} :
    (decide (maximumScore.toNat < leastMaximumScore) ||
      decide (greatestMaximumScore < maximumScore.toNat)) = true ↔
        ¬ (2 ≤ maximumScore.toNat ∧ maximumScore.toNat ≤ 10) := by
  rw [Bool.or_eq_true, decide_eq_true_iff, decide_eq_true_iff, leastMaximumScore,
    greatestMaximumScore]
  omega

theorem scoreProblems_eq_nil_iff : scoreProblems position entry = [] ↔ entry.kind.IsUsable := by
  rw [scoreProblems]
  cases entry.kind with
  | string unique => simp [EntryKind.IsUsable]
  | tag exclusive => simp [EntryKind.IsUsable]
  | rating maximumScore hints =>
      simp only [outOfRange_iff, EntryKind.IsUsable]
      by_cases inside : 2 ≤ maximumScore.toNat ∧ maximumScore.toNat ≤ 10
      · rw [if_neg (not_not.mpr inside)]
        cases hints with
        | none => simp [inside]
        | some labels =>
            by_cases fitting : labels.length = maximumScore.toNat <;> simp [fitting, inside]
      · rw [if_pos inside]
        exact iff_of_false (List.cons_ne_nil _ _) fun usable => inside ⟨usable.1, usable.2.1⟩

theorem repeated_scoreProblems : (scoreProblems position entry).filterMap repeated? = [] := by
  rw [scoreProblems]
  split
  · split
    · rfl
    · split
      · split <;> rfl
      · rfl
  · rfl

/-! ## Problems of all entries -/

theorem repeated_entryProblems_cons (tracks : names.Tracks earlier) :
    (entryProblems names position (entry :: entries)).filterMap repeated? =
      (if Text.isAllBlank entry.name = false ∧ earlier.count entry.name = 1 then [entry.name]
        else []) ++
        (entryProblems (nameProblems names position entry.name).2 (position + 1)
          entries).filterMap repeated? := by
  rw [entryProblems, List.filterMap_append, List.filterMap_append, repeated_nameProblems tracks,
    repeated_scoreProblems, List.append_nil]

/-- The names that are told to be repeated are those that occur for the second time among the
entries. -/
theorem mem_repeated_entryProblems_iff (tracks : names.Tracks earlier) :
    name ∈ (entryProblems names position entries).filterMap repeated? ↔
      Text.isAllBlank name = false ∧ earlier.count name ≤ 1 ∧
        2 ≤ earlier.count name + (entries.map Entry.name).count name := by
  induction entries generalizing names earlier position with
  | nil =>
      simp only [entryProblems, List.filterMap_nil, List.not_mem_nil, List.map_nil, List.count_nil,
        false_iff, not_and]
      omega
  | cons entry rest induction =>
      rw [repeated_entryProblems_cons tracks, List.mem_append,
        induction (tracks.next position entry.name), List.map_cons]
      by_cases same : entry.name = name
      · subst same
        rw [List.count_cons_self, List.count_cons_self, List.mem_ite_nil_right]
        simp only [List.mem_singleton, and_true, ← and_or_left]
        refine and_congr_right fun _ => ?_
        omega
      · rw [List.count_cons_of_ne same, List.count_cons_of_ne same, List.mem_ite_nil_right]
        simp [Ne.symm same]

/-- No name is told to be repeated twice, since it occurs for the second time only once. -/
theorem nodup_repeated_entryProblems (tracks : names.Tracks earlier) :
    ((entryProblems names position entries).filterMap repeated?).Nodup := by
  induction entries generalizing names earlier position with
  | nil => exact .nil
  | cons entry rest induction =>
      have next := tracks.next position entry.name
      rw [repeated_entryProblems_cons tracks]
      split
      next second =>
        refine List.nodup_cons.mpr ⟨fun later => ?_, induction next⟩
        have few := ((mem_repeated_entryProblems_iff next).mp later).2.1
        rw [List.count_cons_self] at few
        omega
      next => exact induction next

/-- Entries have no problems if their names say something and neither recur nor are among the
earlier ones, and their ratings are usable. -/
theorem entryProblems_eq_nil_iff (tracks : names.Tracks earlier) (distinct : earlier.Nodup) :
    entryProblems names position entries = [] ↔
      (∀ entry ∈ entries, Text.HasNonblank entry.name ∧ entry.kind.IsUsable) ∧
        (entries.map Entry.name ++ earlier).Nodup := by
  induction entries generalizing names earlier position with
  | nil => simp [entryProblems, distinct]
  | cons entry rest induction =>
      have unmet : earlier.count entry.name ≠ 1 ↔ entry.name ∉ earlier := by
        rw [← List.count_eq_zero]
        have few := List.nodup_iff_count_le_one.mp distinct entry.name
        omega
      have moved : (entry.name :: (rest.map Entry.name ++ earlier)).Nodup ↔
          (rest.map Entry.name ++ entry.name :: earlier).Nodup :=
        List.perm_middle.nodup_iff.symm
      have next := tracks.next position entry.name
      rw [entryProblems, List.append_eq_nil_iff, List.append_eq_nil_iff,
        nameProblems_eq_nil_iff tracks, scoreProblems_eq_nil_iff, unmet, List.forall_mem_cons,
        List.map_cons, List.cons_append, moved]
      constructor
      · rintro ⟨⟨⟨named, fresh⟩, usable⟩, others⟩
        have ⟨each, apart⟩ := (induction next (List.nodup_cons.mpr ⟨fresh, distinct⟩)).mp others
        exact ⟨⟨⟨named, usable⟩, each⟩, apart⟩
      · rintro ⟨⟨⟨named, usable⟩, each⟩, apart⟩
        have extended := (List.nodup_append.mp apart).2.1
        exact ⟨⟨⟨named, (List.nodup_cons.mp extended).1⟩, usable⟩,
          (induction next extended).mpr ⟨each, apart⟩⟩

/-! ## Problems of a schema -/

variable {configuration : Configuration}

theorem repeated_problems : configuration.problems.filterMap repeated? =
    (entryProblems ⟨[], []⟩ 0 configuration.entries).filterMap repeated? := by
  simp only [problems, contentProblems, List.filterMap_append]
  have unsized : ∀ condition : Prop, [Decidable condition] → ∀ problem, repeated? problem = none →
      (if condition then [problem] else []).filterMap repeated? = [] := by
    intro condition _ problem none
    split <;> simp [none]
  rw [unsized _ _ rfl, unsized _ _ rfl]
  simp

theorem problems_eq_nil_iff_parts : configuration.problems = [] ↔
    (∀ size ∈ configuration.imageSize, 0 < size.width ∧ 0 < size.height) ∧
      entryProblems ⟨[], []⟩ 0 configuration.entries = [] ∧
      (configuration.entries ≠ [] ∨ configuration.imageSize ≠ none) := by
  rcases configuration with ⟨imageSize, entries⟩
  cases imageSize with
  | none => simp [problems, contentProblems, and_comm]
  | some size => simp [problems, contentProblems, UInt32.pos_iff_ne_zero]

theorem problems_eq_nil_iff : configuration.problems = [] ↔ configuration.IsUsable := by
  rw [problems_eq_nil_iff_parts, entryProblems_eq_nil_iff NamesMet.tracks_nil .nil,
    List.append_nil]
  constructor
  · rintro ⟨sized, ⟨each, distinct⟩, storing⟩
    exact ⟨sized, fun entry member => (each entry member).1, distinct,
      fun entry member => (each entry member).2, storing⟩
  · rintro ⟨sized, named, distinct, rated, storing⟩
    exact ⟨sized, ⟨fun entry member => ⟨named entry member, rated entry member⟩, distinct⟩, storing⟩

/-- The schemas without problems are those that can be used. The names that are told to be repeated
are those that are not blank and occur at least twice, each told once. -/
theorem problems_exact (configuration : Configuration) :
    (configuration.problems = [] ↔ configuration.IsUsable) ∧
      (configuration.problems.filterMap repeated?).Nodup ∧
      ∀ name, name ∈ configuration.problems.filterMap repeated? ↔
        Text.HasNonblank name ∧ 2 ≤ (configuration.entries.map Entry.name).count name := by
  rw [repeated_problems]
  refine ⟨problems_eq_nil_iff, nodup_repeated_entryProblems NamesMet.tracks_nil, fun name => ?_⟩
  rw [mem_repeated_entryProblems_iff NamesMet.tracks_nil, Text.isAllBlank_eq_false_iff,
    List.count_nil, Nat.zero_add]
  simp

example : (Configuration.ofEntries (["x", " ", "x", " ", "x"].map (.string · .asString))).problems =
    [.emptyName 1, .repeatedName "x", .emptyName 3] := by decide

end Configuration

end SealedCatalog
