import SealedCatalog.Proofs.Configuration.Usable
import SealedCatalog.Proofs.Import.Loading

/-! Drafts that have a value for every entry. A schema without problems has such a draft, and the
draft has no problems either, unless a rating is to be sorted as a text or as a date: no score has a
key under these methods, and the check of the schema does not look at them. -/

namespace SealedCatalog

/-- The draft has a value for the entry, of its type and not counting as none. -/
def Draft.Gives (draft : Draft) (entry : Entry) : Prop :=
  ∃ value, draft.entries.get? entry.name = some value ∧ value.fits entry.kind = true ∧
    value.isEmpty = false

def Draft.Fills (draft : Draft) (configuration : Configuration) : Prop :=
  ∀ entry ∈ configuration.entries, draft.Gives entry

namespace Entry

/-- A rating that is to be sorted as a text or as a date. -/
def isMissortedRating (entry : Entry) : Bool :=
  match entry.kind with
  | .rating _ _ => entry.sortingMethod == .asString || entry.sortingMethod == .asDate
  | _ => false

/-- The problem that every value of the entry has. -/
def standingProblem? (entry : Entry) : Option RecordProblem :=
  if entry.isMissortedRating then some (.formatting entry.name entry.sortingMethod) else none

/-- A value of the entry's type, with a text that can be read as a number and as a date. -/
def sample (entry : Entry) : DraftValue :=
  match entry.kind with
  | .string _ => .string "2000-01-01"
  | .tag _ => .tags [.typed "2000-01-01"]
  | .rating _ _ => .rating 1 "" false

variable {entry : Entry} {value : DraftValue}

theorem draftProblem?_of_fits (fits : value.fits entry.kind = true)
    (present : value.isEmpty = false) :
    entry.draftProblem? (some value) = value.problem? entry := by
  simp [draftProblem?, Option.filter_some, fits, present]

/-- All scores sort alike, so that a rating has the problem of every value or none. -/
theorem problem?_of_rating {maximumScore : UInt32} {hints : Option (List String)}
    (kind : entry.kind = .rating maximumScore hints) (fits : value.fits entry.kind = true) :
    value.problem? entry = entry.standingProblem? := by
  rcases entry with ⟨name, method, optional, _⟩
  cases kind
  cases value with
  | string text => cases fits
  | tags chosen => cases fits
  | rating score comment useComment => cases method <;> rfl

theorem problem?_of_isMissortedRating (missorted : entry.isMissortedRating = true)
    (fits : value.fits entry.kind = true) :
    value.problem? entry = some (.formatting entry.name entry.sortingMethod) := by
  cases kind : entry.kind with
  | string unique => simp [isMissortedRating, kind] at missorted
  | tag exclusive => simp [isMissortedRating, kind] at missorted
  | rating maximumScore hints =>
      rw [problem?_of_rating kind fits, standingProblem?, if_pos missorted]

theorem fits_sample (entry : Entry) : entry.sample.fits entry.kind = true := by
  rcases entry with ⟨name, method, optional, kind⟩
  cases kind <;> rfl

theorem isEmpty_sample (entry : Entry) : entry.sample.isEmpty = false := by
  rcases entry with ⟨name, method, optional, kind⟩
  cases kind <;> rfl

theorem isSome_encodeText_sample {method : SortingMethod} (active : method.isActive = true) :
    (SortKey.encodeText method "2000-01-01").isSome = true := by
  cases method with
  | unset => cases active
  | disabled => cases active
  | asString => rfl
  | asNumber => decide +kernel
  | asDate => decide +kernel

/-- A text and a single tag can be sorted by every method, and a score as a number. -/
theorem problem?_sample (entry : Entry) : entry.sample.problem? entry = entry.standingProblem? := by
  rcases entry with ⟨name, method, optional, kind⟩
  cases kind with
  | string unique => exact DraftValue.problem?_eq_none_iff.mpr ⟨rfl, isSome_encodeText_sample⟩
  | tag exclusive =>
      exact DraftValue.problem?_eq_none_iff.mpr ⟨Bool.and_false exclusive, fun _ => rfl⟩
  | rating maximumScore hints => exact problem?_of_rating rfl rfl

end Entry

/-! ## Samples for all entries -/

namespace Draft

/-- The values of a draft that has the sample of each entry. -/
def samples (entries : List Entry) : Dict DraftValue :=
  entries.foldr (fun entry values => values.insert entry.name entry.sample) Dict.empty

theorem get?_samples {entries : List Entry} (distinct : (entries.map Entry.name).Nodup)
    {entry : Entry} (member : entry ∈ entries) :
    (samples entries).get? entry.name = some entry.sample := by
  induction entries with
  | nil => cases member
  | cons head rest induction =>
      have ⟨fresh, others⟩ := List.nodup_cons.mp distinct
      rw [samples, List.foldr_cons]
      rcases List.mem_cons.mp member with rfl | later
      · exact Dict.get?_insert_self _ _ _
      · have different : head.name ≠ entry.name := fun same =>
          fresh (same ▸ List.mem_map_of_mem later)
        rw [Dict.get?_insert_of_ne _ different]
        exact induction others later

variable {configuration : Configuration}

/-- With an image supplied, the problems of a draft are those of its entries. -/
theorem problems_eq_filterMap (draft : Draft) : draft.problems true configuration =
    configuration.entries.filterMap fun entry =>
      entry.draftProblem? (draft.entries.get? entry.name) := by
  rw [problems, Bool.not_true, Bool.and_false]
  rfl

theorem mem_problems_of_gives {draft : Draft} {entry : Entry}
    (configured : entry ∈ configuration.entries) (missorted : entry.isMissortedRating = true)
    (gives : draft.Gives entry) (imageSupplied : Bool) :
    .formatting entry.name entry.sortingMethod ∈ draft.problems imageSupplied configuration := by
  rcases gives with ⟨value, drafted, fits, present⟩
  have problem : entry.draftProblem? (draft.entries.get? entry.name) =
      some (.formatting entry.name entry.sortingMethod) := by
    rw [drafted, Entry.draftProblem?_of_fits fits present,
      Entry.problem?_of_isMissortedRating missorted fits]
  exact List.mem_append_right _ (List.mem_filterMap.mpr ⟨entry, configured, problem⟩)

end Draft

namespace Configuration

variable {configuration : Configuration}

theorem filterMap_standingProblem?_eq_nil_iff {entries : List Entry} :
    entries.filterMap Entry.standingProblem? = [] ↔
      ∀ entry ∈ entries, entry.isMissortedRating = false := by
  rw [List.filterMap_eq_nil_iff]
  refine forall₂_congr fun entry _ => ?_
  cases missorted : entry.isMissortedRating <;> simp [Entry.standingProblem?, missorted]

theorem exists_fills_with_standingProblems (sound : configuration.problems = []) :
    ∃ draft : Draft, draft.Fills configuration ∧ draft.problems true configuration =
      configuration.entries.filterMap Entry.standingProblem? := by
  have distinct := (problems_eq_nil_iff.mp sound).distinct
  refine ⟨⟨none, Draft.samples configuration.entries⟩, fun entry configured => ?_, ?_⟩
  · exact ⟨entry.sample, Draft.get?_samples distinct configured, entry.fits_sample,
      entry.isEmpty_sample⟩
  · rw [Draft.problems_eq_filterMap]
    refine List.filterMap_congr fun entry configured => ?_
    rw [Draft.get?_samples distinct configured,
      Entry.draftProblem?_of_fits entry.fits_sample entry.isEmpty_sample, entry.problem?_sample]

/-- A schema without problems has a draft with a value for each entry whose only problems are those
of missorted ratings. It has one without problems exactly if it has no such rating, since every
draft with a value for one has that problem. -/
theorem exists_fills_of_sound (sound : configuration.problems = []) :
    (∃ draft : Draft, draft.Fills configuration ∧ draft.problems true configuration =
      configuration.entries.filterMap Entry.standingProblem?) ∧
    ((∃ draft : Draft, draft.Fills configuration ∧ draft.problems true configuration = []) ↔
      ∀ entry ∈ configuration.entries, entry.isMissortedRating = false) ∧
    ∀ entry ∈ configuration.entries, entry.isMissortedRating = true →
      ∀ draft : Draft, draft.Gives entry → ∀ imageSupplied,
        .formatting entry.name entry.sortingMethod ∈
          draft.problems imageSupplied configuration := by
  have filled := exists_fills_with_standingProblems sound
  refine ⟨filled, ⟨?_, fun sorted => ?_⟩, fun entry configured missorted draft gives =>
    Draft.mem_problems_of_gives configured missorted gives⟩
  · rintro ⟨draft, fills, none⟩ entry configured
    refine Bool.eq_false_iff.mpr fun missorted => ?_
    have problem := Draft.mem_problems_of_gives configured missorted (fills entry configured) true
    rw [none] at problem
    cases problem
  · rcases filled with ⟨draft, fills, standing⟩
    exact ⟨draft, fills, standing.trans (filterMap_standingProblem?_eq_nil_iff.mpr sorted)⟩

/-- An entry of each type. Dates need not be given, and a record has one genre. -/
def concerts : Configuration :=
  ⟨some ⟨64, 48⟩, [(Entry.string "date" .asDate).withOptional true, .tag "genre" .asNumber true,
    .rating "stars" 5]⟩

theorem exists_fills_of_sound_concerts : concerts.problems = [] ∧
    ∃ draft : Draft, draft.Fills concerts ∧ draft.problems true concerts = [] := by
  have sound : concerts.problems = [] := by decide
  exact ⟨sound, (exists_fills_of_sound sound).2.1.mpr (by decide)⟩

/-- Stars that are to be sorted as texts. -/
def starred : Configuration :=
  .ofEntries [(Entry.rating "stars" 5).withSorting .asString]

theorem not_exists_fills_starred : starred.problems = [] ∧
    ¬ ∃ draft : Draft, draft.Fills starred ∧ draft.problems true starred = [] := by
  refine ⟨by decide, ?_⟩
  rintro ⟨draft, fills, none⟩
  have configured : (Entry.rating "stars" 5).withSorting .asString ∈ starred.entries :=
    List.mem_cons_self
  have problem := Draft.mem_problems_of_gives configured (by decide) (fills _ configured) true
  rw [none] at problem
  cases problem

end Configuration

end SealedCatalog
