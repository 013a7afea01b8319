import Mathlib.Data.List.Sort
import SealedCatalog.TagPool.Candidate

/-! The order of suggestions. There is one way only to rank the tags that hold a criterion, and the
suggestions are that ranking, with the offer of a new tag after it if the criterion is none yet. -/

namespace SealedCatalog

/-! ## How tags match -/

namespace TagMatch

/-- What the ways to match mean, each apart from the better ones. -/
def Holds (criterion tag : String) : TagMatch → Prop
  | exact => tag = criterion
  | beginning => tag ≠ criterion ∧ criterion.toList <+: tag.toList
  | inside => ¬ criterion.toList <+: tag.toList ∧ criterion.toList <:+: tag.toList

def rank : TagMatch → Nat
  | exact => 0
  | beginning => 1
  | inside => 2

theorem of?_eq_some_iff {criterion tag : String} {how : TagMatch} :
    of? criterion tag = some how ↔ how.Holds criterion tag := by
  have begins : Text.beginsWith tag criterion = true ↔ criterion.toList <+: tag.toList :=
    List.isPrefixOf_iff_prefix
  have contains : Text.contains tag criterion = true ↔ criterion.toList <:+: tag.toList := by
    rw [Text.contains, Text.occursIn_iff]
    exact exists_congr fun before => exists_congr fun after => eq_comm
  have equal : tag = criterion → criterion.toList <+: tag.toList := by
    rintro rfl
    exact List.prefix_refl _
  simp only [of?, begins, contains]
  cases how <;> grind [Holds]

/-- A tag matches in one way at most. -/
theorem Holds.unique {criterion tag : String} {how other : TagMatch} (holds : how.Holds criterion tag)
    (otherHolds : other.Holds criterion tag) : how = other :=
  Option.some.inj ((of?_eq_some_iff.mpr holds).symm.trans (of?_eq_some_iff.mpr otherHolds))

/-- A tag matches if the criterion stands somewhere in it. -/
theorem exists_holds_iff {criterion tag : String} :
    (∃ how : TagMatch, how.Holds criterion tag) ↔ criterion.toList <:+: tag.toList := by
  constructor
  · rintro ⟨how, holds⟩
    cases how with
    | exact => exact holds ▸ List.infix_rfl
    | beginning => exact holds.2.isInfix
    | inside => exact holds.2
  · intro inside
    by_cases same : tag = criterion
    · exact ⟨exact, same⟩
    · by_cases begins : criterion.toList <+: tag.toList
      · exact ⟨beginning, same, begins⟩
      · exact ⟨TagMatch.inside, begins, inside⟩

end TagMatch

namespace TagCandidate

/-! ## Sifting -/

/-- A tag at an index, if it matches in the given way. -/
def matching? (criterion : String) (how : TagMatch) (found : String × Nat) : Option TagCandidate :=
  if TagMatch.of? criterion found.1 = some how then some (known how found.2 found.1) else none

def matching (criterion : String) (how : TagMatch) (tags : List String) : List TagCandidate :=
  tags.zipIdx.filterMap (matching? criterion how)

theorem matching?_eq_some_iff {criterion : String} {how : TagMatch} {found : String × Nat}
    {candidate : TagCandidate} : matching? criterion how found = some candidate ↔
      how.Holds criterion found.1 ∧ known how found.2 found.1 = candidate := by
  rw [matching?, Option.ite_none_right_eq_some, TagMatch.of?_eq_some_iff, Option.some.injEq]

namespace Sifted

def of (sifted : Sifted) : TagMatch → List TagCandidate
  | .exact => sifted.exact
  | .beginning => sifted.beginning
  | .inside => sifted.inside

/-- A tag goes to the end of the list for the way it matches, and the other lists stay. -/
theorem of_step (criterion : String) (sifted : Sifted) (found : String × Nat) (how : TagMatch) :
    (sifted.step criterion found).of how =
      sifted.of how ++ (matching? criterion how found).toList := by
  unfold step matching?
  cases matched : TagMatch.of? criterion found.1 with
  | none => simp
  | some actual => cases actual <;> cases how <;> simp [add, of]

theorem of_foldl_step (criterion : String) (sifted : Sifted) (tags : List (String × Nat))
    (how : TagMatch) : (tags.foldl (step criterion) sifted).of how =
      sifted.of how ++ tags.filterMap (matching? criterion how) := by
  induction tags generalizing sifted with
  | nil => simp
  | cons found rest induction =>
      rw [List.foldl_cons, induction, of_step, List.append_assoc]
      congr 1
      rw [List.filterMap_cons]
      cases matching? criterion how found <;> rfl

end Sifted

theorem of_sift (criterion : String) (tags : List String) (how : TagMatch) :
    (sift criterion tags).of how = matching criterion how tags := by
  rw [sift, Sifted.of_foldl_step]
  cases how <;> rfl

variable {criterion : String} {tags : List String} {how : TagMatch}

theorem mem_matching_iff {candidate : TagCandidate} : candidate ∈ matching criterion how tags ↔
    ∃ index tag, candidate = known how index tag ∧ tags[index]? = some tag ∧
      how.Holds criterion tag := by
  simp only [matching, List.mem_filterMap, matching?_eq_some_iff, Prod.exists,
    List.mk_mem_zipIdx_iff_getElem?]
  rw [exists_comm]
  refine exists_congr fun index => exists_congr fun tag => ?_
  rw [and_comm (a := candidate = _), and_assoc, eq_comm (a := candidate)]

/-! ## Rankings -/

/-- A tag that matches in a better way comes first, and of tags that match in the same way the one
with the lesser index. -/
inductive Precedes : TagCandidate → TagCandidate → Prop where
  | better {how other : TagMatch} (better : how.rank < other.rank) (index otherIndex : Nat)
      (tag otherTag : String) : Precedes (known how index tag) (known other otherIndex otherTag)
  | earlier (how : TagMatch) {index otherIndex : Nat} (earlier : index < otherIndex)
      (tag otherTag : String) : Precedes (known how index tag) (known how otherIndex otherTag)

theorem Precedes.asymm {left right : TagCandidate} (before : left.Precedes right) :
    ¬ right.Precedes left := by
  intro after
  cases before with
  | better better =>
      cases after with
      | better worse => exact Nat.lt_asymm better worse
      | earlier => exact Nat.lt_irrefl _ better
  | earlier how earlier =>
      cases after with
      | better better => exact Nat.lt_irrefl _ better
      | earlier _ later => exact Nat.lt_asymm earlier later

instance : Std.Asymm Precedes := ⟨fun _ _ => Precedes.asymm⟩

theorem pairwise_matching : (matching criterion how tags).Pairwise Precedes := by
  have ascending : tags.zipIdx.Pairwise fun left right => left.2 < right.2 := by
    rw [← List.pairwise_map (f := Prod.snd), List.zipIdx_map_snd]
    exact List.pairwise_lt_range'
  refine ascending.filterMap _ fun left right before candidate found other later => ?_
  obtain ⟨-, rfl⟩ := matching?_eq_some_iff.mp found
  obtain ⟨-, rfl⟩ := matching?_eq_some_iff.mp later
  exact .earlier how before left.1 right.1

/-- The candidates are the tags that hold the criterion, each once, in their order. -/
structure IsRanking (criterion : String) (tags : List String) (ranked : List TagCandidate) :
    Prop where
  inOrder : ranked.Pairwise Precedes
  sound : ∀ candidate ∈ ranked, ∃ how index tag, candidate = known how index tag ∧
    tags[index]? = some tag ∧ how.Holds criterion tag
  complete : ∀ index tag, tags[index]? = some tag → criterion.toList <:+: tag.toList →
    ∃! candidate, candidate ∈ ranked ∧ candidate.index? = some index

namespace IsRanking

variable {ranked other : List TagCandidate}

theorem mem_iff (ranking : IsRanking criterion tags ranked) {index : Nat} {tag : String} :
    known how index tag ∈ ranked ↔ tags[index]? = some tag ∧ how.Holds criterion tag := by
  constructor
  · intro member
    obtain ⟨_, _, _, same, stands, holds⟩ := ranking.sound _ member
    cases same
    exact ⟨stands, holds⟩
  · rintro ⟨stands, holds⟩
    obtain ⟨candidate, ⟨member, here⟩, -⟩ :=
      ranking.complete index tag stands (TagMatch.exists_holds_iff.mp ⟨how, holds⟩)
    obtain ⟨actual, place, found, rfl, standsThere, holdsThere⟩ := ranking.sound candidate member
    cases here
    cases stands.symm.trans standsThere
    cases holds.unique holdsThere
    exact member

theorem unique (ranking : IsRanking criterion tags ranked)
    (otherRanking : IsRanking criterion tags other) : ranked = other := by
  refine ranking.inOrder.eq_of_mem_iff otherRanking.inOrder fun candidate => ?_
  cases candidate with
  | known how index tag => rw [ranking.mem_iff, otherRanking.mem_iff]
  | creation tag =>
      refine iff_of_false (fun member => ?_) fun member => ?_
      · obtain ⟨_, _, _, same, -⟩ := ranking.sound _ member
        cases same
      · obtain ⟨_, _, _, same, -⟩ := otherRanking.sound _ member
        cases same

end IsRanking

/-- The tags that match exactly, then those that begin with the criterion, then the others. -/
def ranking (criterion : String) (tags : List String) : List TagCandidate :=
  matching criterion .exact tags ++ matching criterion .beginning tags ++
    matching criterion .inside tags

theorem mem_ranking_iff {candidate : TagCandidate} : candidate ∈ ranking criterion tags ↔
    ∃ how index tag, candidate = known how index tag ∧ tags[index]? = some tag ∧
      how.Holds criterion tag := by
  have listed : candidate ∈ ranking criterion tags ↔
      ∃ how, candidate ∈ matching criterion how tags := by
    rw [ranking, List.mem_append, List.mem_append]
    constructor
    · rintro ((exact | begins) | inside)
      · exact ⟨.exact, exact⟩
      · exact ⟨.beginning, begins⟩
      · exact ⟨.inside, inside⟩
    · rintro ⟨how, member⟩
      cases how with
      | exact => exact .inl (.inl member)
      | beginning => exact .inl (.inr member)
      | inside => exact .inr member
  rw [listed]
  exact exists_congr fun how => mem_matching_iff

theorem pairwise_ranking : (ranking criterion tags).Pairwise Precedes := by
  have apart : ∀ {better worse : TagMatch}, better.rank < worse.rank →
      ∀ left ∈ matching criterion better tags, ∀ right ∈ matching criterion worse tags,
        left.Precedes right := by
    intro better worse less left leftMember right rightMember
    obtain ⟨index, tag, rfl, -⟩ := mem_matching_iff.mp leftMember
    obtain ⟨otherIndex, otherTag, rfl, -⟩ := mem_matching_iff.mp rightMember
    exact .better less index otherIndex tag otherTag
  refine List.pairwise_append.mpr ⟨List.pairwise_append.mpr
    ⟨pairwise_matching, pairwise_matching, apart (by decide)⟩, pairwise_matching, ?_⟩
  intro left member
  rcases List.mem_append.mp member with exact | begins
  · exact apart (by decide) left exact
  · exact apart (by decide) left begins

theorem isRanking_ranking (criterion : String) (tags : List String) :
    IsRanking criterion tags (ranking criterion tags) where
  inOrder := pairwise_ranking
  sound _ member := mem_ranking_iff.mp member
  complete index tag stands inside := by
    obtain ⟨how, holds⟩ := TagMatch.exists_holds_iff.mpr inside
    refine ⟨known how index tag, ⟨mem_ranking_iff.mpr ⟨how, index, tag, rfl, stands, holds⟩, rfl⟩, ?_⟩
    rintro other ⟨member, here⟩
    obtain ⟨actual, place, found, rfl, standsThere, holdsThere⟩ := mem_ranking_iff.mp member
    cases here
    cases stands.symm.trans standsThere
    rw [holds.unique holdsThere]

theorem matching_exact_eq_nil_iff : matching criterion .exact tags = [] ↔ criterion ∉ tags := by
  rw [List.eq_nil_iff_forall_not_mem]
  constructor
  · intro none member
    obtain ⟨index, stands⟩ := List.mem_iff_getElem?.mp member
    exact none _ (mem_matching_iff.mpr ⟨index, criterion, rfl, stands, rfl⟩)
  · intro absent candidate member
    obtain ⟨index, tag, -, stands, rfl⟩ := mem_matching_iff.mp member
    exact absent (List.mem_of_getElem? stands)

/-- The suggestions are the one ranking of the tags that hold the criterion, and after it the offer
to create the criterion exactly if that is allowed and it is not among the tags. -/
theorem suggest_ranks (criterion : String) (tags : List String) (allowCreating : Bool) :
    ∃ ranked, IsRanking criterion tags ranked ∧
      (∀ other, IsRanking criterion tags other → other = ranked) ∧
      suggest criterion tags allowCreating =
        ranked ++ if allowCreating = true ∧ criterion ∉ tags then [creation criterion] else [] := by
  have ranks := isRanking_ranking criterion tags
  refine ⟨ranking criterion tags, ranks, fun other otherRanks => otherRanks.unique ranks, ?_⟩
  have sifted : (sift criterion tags).exact = matching criterion .exact tags ∧
      (sift criterion tags).beginning = matching criterion .beginning tags ∧
      (sift criterion tags).inside = matching criterion .inside tags :=
    ⟨of_sift criterion tags .exact, of_sift criterion tags .beginning, of_sift criterion tags .inside⟩
  rw [suggest, sifted.1, sifted.2.1, sifted.2.2, ← ranking]
  simp only [Bool.and_eq_true, List.isEmpty_iff, matching_exact_eq_nil_iff]

example : suggest "foo" ["xfoo", "foobar", "food"] true =
    [known .beginning 1 "foobar", known .beginning 2 "food", known .inside 0 "xfoo",
      creation "foo"] := by
  decide

end TagCandidate

end SealedCatalog
