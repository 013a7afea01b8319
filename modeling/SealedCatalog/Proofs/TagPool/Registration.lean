import SealedCatalog.Proofs.Dict
import SealedCatalog.Proofs.TagPool

/-! What registering tags makes of a pool. The list of the entry goes on with the tags that are new
to it, the indices lead to the tags that were given, and all else stays. Tags that are registered
again are all known, so that nothing changes any more. -/

namespace SealedCatalog.TagPool

/-! ## The tags that are new -/

/-- The tags among the added that are not known, each once, in the order in which they come up
first. -/
structure AreNew (known added fresh : List String) : Prop where
  mem_iff : ∀ tag, tag ∈ fresh ↔ tag ∈ added ∧ tag ∉ known
  inOrder : fresh.Pairwise fun left right => added.idxOf left < added.idxOf right

private theorem idxOf_cons_lt {head left right : String} {rest : List String}
    (notLeft : head ≠ left) (notRight : head ≠ right) (before : rest.idxOf left < rest.idxOf right) :
    (head :: rest).idxOf left < (head :: rest).idxOf right := by
  rw [List.idxOf_cons_ne rest notLeft, List.idxOf_cons_ne rest notRight]
  exact Nat.succ_lt_succ before

/-- After a first tag, the tags that are new among the rest come up in the order that they have
there, if that tag is known by then. -/
private theorem inOrder_cons {known rest : List String} {tag : String} (member : tag ∈ known)
    (inOrder : (additions known rest).Pairwise fun left right =>
      rest.idxOf left < rest.idxOf right) :
    (additions known rest).Pairwise fun left right =>
      (tag :: rest).idxOf left < (tag :: rest).idxOf right := by
  have other : ∀ fresh ∈ additions known rest, tag ≠ fresh := by
    rintro fresh new rfl
    exact (mem_additions_iff.mp new).2 member
  exact inOrder.imp_of_mem fun left right before =>
    idxOf_cons_lt (other _ left) (other _ right) before

theorem areNew_additions (known added : List String) :
    AreNew known added (additions known added) := by
  refine ⟨fun tag => mem_additions_iff, ?_⟩
  induction added generalizing known with
  | nil => exact .nil
  | cons tag rest induction =>
      by_cases member : tag ∈ known
      · rw [additions_cons_of_mem member]
        exact inOrder_cons member (induction known)
      · rw [additions_cons_of_not_mem member]
        have here : tag ∈ known ++ [tag] := by simp
        refine .cons (fun fresh new => ?_) (inOrder_cons here (induction _))
        have other : tag ≠ fresh := fun same => (mem_additions_iff.mp new).2 (same ▸ here)
        rw [List.idxOf_cons_self, List.idxOf_cons_ne rest other]
        exact Nat.succ_pos _

/-! ## Registering again -/

/-- Tags that are enrolled again are found where they were found or put before. -/
theorem enrollAll_enrollAll (known added : List String) :
    enrollAll (enrollAll known added).1 added = enrollAll known added := by
  have same : (enrollAll (enrollAll known added).1 added).1 = (enrollAll known added).1 := by
    rw [fst_enrollAll (enrollAll known added).1, fst_enrollAll known, additions_append_additions,
      List.append_nil]
  refine Prod.ext same (List.map_injective_iff.mpr (Option.some_injective Nat) ?_)
  show List.map some _ = List.map some _
  rw [← map_findIdx?_enrollAll, ← map_findIdx?_enrollAll, same]

theorem register_register (pool : TagPool) (entry : String) (added : List String) :
    (pool.register entry added).1.register entry added = pool.register entry added := by
  cases added with
  | nil => rfl
  | cons tag rest =>
      have kept : ∀ known : List String, (pool.pools.insert entry known).insert entry known =
          pool.pools.insert entry known := fun known =>
        Dict.insert_of_get? (pool.pools.get?_insert_self entry known)
      simp only [register, List.isEmpty_cons, Bool.false_eq_true, if_false, tags_insert_self,
        enrollAll_enrollAll, kept]

/-! ## Registered tags -/

/-- What registering tags for an entry makes of a pool, and the indices that it gives. -/
structure Registers (pool : TagPool) (entry : String) (added : List String) (later : TagPool)
    (indices : List Nat) : Prop where
  ascending : indices.Pairwise (· < ·)
  /-- Every index leads to a tag that was given. -/
  resolved : ∀ index ∈ indices, ∃ tag ∈ added, later.resolve entry index = some tag
  /-- Every tag that was given has one of the indices. -/
  indexed : ∀ tag ∈ added, ∃! index, index ∈ indices ∧ later.resolve entry index = some tag
  appended : ∃ fresh, AreNew (pool.tags entry) added fresh ∧
    later.tags entry = pool.tags entry ++ fresh
  distinct : (pool.tags entry).Nodup → (later.tags entry).Nodup
  others : ∀ other, other ≠ entry → later.pools.get? other = pool.pools.get? other
  idle : added = [] → later = pool
  again : later.register entry added = (later, indices)

theorem registers_register (pool : TagPool) (entry : String) (added : List String) :
    pool.Registers entry added (pool.register entry added).1 (pool.register entry added).2 where
  ascending := ascending_register pool entry added
  resolved index member := by
    obtain ⟨tag, given, found⟩ := mem_register_iff.mp member
    exact ⟨tag, given, resolve_of_position found⟩
  indexed tag given := by
    obtain ⟨index, found⟩ := exists_position_register pool entry given
    refine ⟨index, ⟨mem_register_iff.mpr ⟨tag, given, found⟩, resolve_of_position found⟩, ?_⟩
    rintro other ⟨member, resolved⟩
    -- The other index is the position of some tag, and that tag is the one it leads to.
    obtain ⟨named, -, position⟩ := mem_register_iff.mp member
    cases (resolve_of_position position).symm.trans resolved
    exact Option.some.inj (position.symm.trans found)
  appended := ⟨_, areNew_additions _ added, tags_register pool entry added⟩
  distinct distinct := by
    rw [tags_register, ← fst_enrollAll]
    exact nodup_enrollAll distinct added
  others other different := by
    rw [get?_register, if_neg fun both => different both.1.symm]
  idle := by
    rintro rfl
    rfl
  again := register_register pool entry added

end SealedCatalog.TagPool
