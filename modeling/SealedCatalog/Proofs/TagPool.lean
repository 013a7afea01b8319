import SealedCatalog.TagPool

/-! Growth of tag pools. Registering tags only appends to the lists, so an index that has a tag
keeps it through any run of registrations. -/

namespace SealedCatalog.TagPool

/-- Every list of tags of the first pool is the beginning of that in the second. -/
def Extends (pool extended : TagPool) : Prop :=
  ∀ entry, pool.tags entry <+: extended.tags entry

theorem Extends.refl (pool : TagPool) : pool.Extends pool := fun _ => List.prefix_refl _

theorem Extends.trans {first second third : TagPool} (before : first.Extends second)
    (after : second.Extends third) : first.Extends third := fun entry =>
  (before entry).trans (after entry)

/-- An index that has a tag keeps it. -/
theorem Extends.resolve_eq {pool extended : TagPool} (grown : pool.Extends extended)
    {entry : String} {index : Nat} (resolved : (pool.resolve entry index).isSome = true) :
    extended.resolve entry index = pool.resolve entry index := by
  rcases grown entry with ⟨added, appended⟩
  have inside : index < (pool.tags entry).length := by simpa [resolve] using resolved
  rw [resolve, resolve, ← appended, List.getElem?_append_left inside]

theorem Extends.count_le {pool extended : TagPool} (grown : pool.Extends extended)
    (entry : String) : pool.count entry ≤ extended.count entry :=
  (grown entry).length_le

theorem fst_enroll (known : List String) (tag : String) :
    (enroll known tag).1 = if tag ∈ known then known else known ++ [tag] := by
  unfold enroll
  split
  next index found =>
    have member : tag ∈ known := by
      obtain ⟨inside, same, _⟩ := List.findIdx?_eq_some_iff_getElem.mp found
      exact beq_iff_eq.mp same ▸ List.getElem_mem inside
    rw [if_pos member]
  next absent =>
    have fresh : tag ∉ known := fun member => by
      simpa using List.findIdx?_eq_none_iff.mp absent tag member
    rw [if_neg fresh]

theorem prefix_enroll (known : List String) (tag : String) : known <+: (enroll known tag).1 := by
  rw [fst_enroll]
  split
  · exact List.prefix_refl known
  · exact List.prefix_append known [tag]

theorem prefix_enrollAll (known added : List String) : known <+: (enrollAll known added).1 := by
  induction added generalizing known with
  | nil => exact List.prefix_refl known
  | cons tag rest induction => exact (prefix_enroll known tag).trans (induction _)

theorem nodup_enroll {known : List String} (distinct : known.Nodup) (tag : String) :
    (enroll known tag).1.Nodup := by
  rw [fst_enroll]
  split
  · exact distinct
  next fresh =>
    refine List.nodup_append.mpr ⟨distinct, List.pairwise_singleton _ tag, ?_⟩
    rintro other member _ (_ | ⟨_, ⟨⟩⟩) rfl
    exact fresh member

theorem nodup_enrollAll {known : List String} (distinct : known.Nodup) (added : List String) :
    (enrollAll known added).1.Nodup := by
  induction added generalizing known with
  | nil => exact distinct
  | cons tag rest induction => exact induction (nodup_enroll distinct tag)

theorem snd_enroll_lt (known : List String) (tag : String) :
    (enroll known tag).2 < (enroll known tag).1.length := by
  unfold enroll
  split
  next index found => exact (List.findIdx?_eq_some_iff_getElem.mp found).1
  · simp

theorem lt_length_of_mem_enrollAll {known added : List String} {index : Nat}
    (member : index ∈ (enrollAll known added).2) : index < (enrollAll known added).1.length := by
  induction added generalizing known with
  | nil => cases member
  | cons tag rest induction =>
      rcases List.mem_cons.mp member with rfl | later
      · exact Nat.lt_of_lt_of_le (snd_enroll_lt known tag) (prefix_enrollAll _ rest).length_le
      · exact induction later

theorem tags_insert_self (pools : Dict (List String)) (entry : String) (known : List String) :
    (TagPool.mk (pools.insert entry known)).tags entry = known := by
  rw [tags, Dict.get?_insert_self, Option.getD_some]

theorem tags_insert_of_ne (pools : Dict (List String)) {entry other : String}
    (different : entry ≠ other) (known : List String) :
    (TagPool.mk (pools.insert entry known)).tags other = (TagPool.mk pools).tags other := by
  rw [tags, Dict.get?_insert_of_ne _ different, tags]

theorem extends_register (pool : TagPool) (entry : String) (added : List String) :
    pool.Extends (pool.register entry added).1 := by
  unfold register
  split
  · exact Extends.refl pool
  · intro other
    show _ <+: (TagPool.mk (pool.pools.insert entry _)).tags other
    by_cases same : entry = other
    · subst same
      rw [tags_insert_self]
      exact prefix_enrollAll _ added
    · exact (tags_insert_of_ne _ same _).symm ▸ List.prefix_refl _

/-- No entry has a tag twice. -/
def IsDistinct (pool : TagPool) : Prop :=
  ∀ entry, (pool.tags entry).Nodup

theorem isDistinct_register {pool : TagPool} (distinct : pool.IsDistinct) (entry : String)
    (added : List String) : (pool.register entry added).1.IsDistinct := by
  unfold register
  split
  · exact distinct
  · intro other
    show ((TagPool.mk (pool.pools.insert entry _)).tags other).Nodup
    by_cases same : entry = other
    · subst same
      rw [tags_insert_self]
      exact nodup_enrollAll (distinct entry) added
    · rw [tags_insert_of_ne _ same]
      exact distinct other

/-- The pool grows to the later one, which has no tag twice if the pool has none. -/
structure Grows (pool later : TagPool) : Prop where
  appended : pool.Extends later
  distinct : pool.IsDistinct → later.IsDistinct

theorem Grows.refl (pool : TagPool) : pool.Grows pool := ⟨.refl pool, id⟩

theorem Grows.trans {first second third : TagPool} (before : first.Grows second)
    (after : second.Grows third) : first.Grows third :=
  ⟨before.appended.trans after.appended, fun distinct => after.distinct (before.distinct distinct)⟩

theorem grows_register (pool : TagPool) (entry : String) (added : List String) :
    pool.Grows (pool.register entry added).1 :=
  ⟨extends_register pool entry added, fun distinct => isDistinct_register distinct entry added⟩

theorem ascending_register (pool : TagPool) (entry : String) (added : List String) :
    (pool.register entry added).2.Pairwise (· < ·) := by
  unfold register
  split
  · exact .nil
  · exact Indices.ascending_sorted _

theorem lt_count_of_mem_register {pool : TagPool} {entry : String} {added : List String}
    {index : Nat} (member : index ∈ (pool.register entry added).2) :
    index < (pool.register entry added).1.count entry := by
  unfold register at member ⊢
  split at member
  · cases member
  next some =>
    rw [if_neg some]
    show index < ((TagPool.mk (pool.pools.insert entry _)).tags entry).length
    rw [tags_insert_self]
    exact lt_length_of_mem_enrollAll (Indices.mem_sorted.mp member)

/-! Positions of registered tags -/

theorem findIdx?_of_prefix {known later : List String} (grown : known <+: later) {tag : String}
    {index : Nat} (found : known.findIdx? (· == tag) = some index) :
    later.findIdx? (· == tag) = some index := by
  rcases grown with ⟨added, rfl⟩
  rw [List.findIdx?_append, found, Option.some_or]

/-- A tag that has a position keeps it. -/
theorem Extends.position_eq {pool extended : TagPool} (grown : pool.Extends extended)
    {entry tag : String} {index : Nat} (found : pool.position entry tag = some index) :
    extended.position entry tag = some index :=
  findIdx?_of_prefix (grown entry) found

/-- What stands at the position of a tag is that tag. -/
theorem resolve_of_position {pool : TagPool} {entry tag : String} {index : Nat}
    (found : pool.position entry tag = some index) : pool.resolve entry index = some tag := by
  obtain ⟨inside, same, _⟩ := List.findIdx?_eq_some_iff_getElem.mp found
  rw [resolve, List.getElem?_eq_getElem inside, beq_iff_eq.mp same]

theorem findIdx?_enroll (known : List String) (tag : String) :
    (enroll known tag).1.findIdx? (· == tag) = some (enroll known tag).2 := by
  unfold enroll
  split
  next index found => exact found
  next absent =>
    rw [List.findIdx?_append, absent]
    simp

/-- The indices of enrolled tags are their positions in the list with all of them. -/
theorem map_findIdx?_enrollAll (known added : List String) :
    (added.map fun tag => (enrollAll known added).1.findIdx? (· == tag)) =
      (enrollAll known added).2.map some := by
  induction added generalizing known with
  | nil => rfl
  | cons tag rest induction =>
      have here := findIdx?_of_prefix (prefix_enrollAll (enroll known tag).1 rest)
        (findIdx?_enroll known tag)
      exact List.cons_eq_cons.mpr ⟨here, induction (enroll known tag).1⟩

theorem exists_position_register (pool : TagPool) (entry : String) {added : List String}
    {tag : String} (member : tag ∈ added) :
    ∃ index, (pool.register entry added).1.position entry tag = some index := by
  have some : added.isEmpty = false := List.isEmpty_eq_false_iff.mpr (List.ne_nil_of_mem member)
  have listed := List.mem_map_of_mem (f := fun tag =>
    (enrollAll (pool.tags entry) added).1.findIdx? (· == tag)) member
  rw [map_findIdx?_enrollAll] at listed
  obtain ⟨index, _, found⟩ := List.mem_map.mp listed
  refine ⟨index, ?_⟩
  rw [register, some, position]
  simpa only [Bool.false_eq_true, if_false, tags_insert_self] using found.symm

theorem mem_register_iff {pool : TagPool} {entry : String} {added : List String} {index : Nat} :
    index ∈ (pool.register entry added).2 ↔
      ∃ tag ∈ added, (pool.register entry added).1.position entry tag = some index := by
  unfold register
  split
  next none => simp [List.isEmpty_iff.mp none]
  next =>
    have listed : index ∈ (enrollAll (pool.tags entry) added).2 ↔
        some index ∈ (enrollAll (pool.tags entry) added).2.map some := by simp
    rw [Indices.mem_sorted, listed, ← map_findIdx?_enrollAll, List.mem_map]
    simp only [position, tags_insert_self]

/-! What registering appends -/

/-- The tags among the added that are not known, in the order in which they come up first. -/
def additions (known added : List String) : List String :=
  (added.filter fun tag => tag ∉ known).eraseDups

@[simp] theorem additions_nil (known : List String) : additions known [] = [] := rfl

theorem additions_cons_of_mem {known : List String} {tag : String} (member : tag ∈ known)
    (rest : List String) : additions known (tag :: rest) = additions known rest := by
  rw [additions, List.filter_cons_of_neg (by simpa using member), additions]

theorem additions_cons_of_not_mem {known : List String} {tag : String} (fresh : tag ∉ known)
    (rest : List String) :
    additions known (tag :: rest) = tag :: additions (known ++ [tag]) rest := by
  rw [additions, List.filter_cons_of_pos (by simpa using fresh), List.eraseDups_cons,
    List.filter_filter, additions]
  congr 3
  funext other
  by_cases same : other = tag <;> simp [same]

theorem mem_additions_iff {known added : List String} {tag : String} :
    tag ∈ additions known added ↔ tag ∈ added ∧ tag ∉ known := by
  simp [additions]

theorem additions_eq_nil_iff {known added : List String} :
    additions known added = [] ↔ ∀ tag ∈ added, tag ∈ known := by
  rw [List.eq_nil_iff_forall_not_mem]
  refine forall_congr' fun tag => ?_
  rw [mem_additions_iff, not_and, Decidable.not_not]

theorem mem_append_additions {known added : List String} {tag : String} (member : tag ∈ added) :
    tag ∈ known ++ additions known added := by
  rw [List.mem_append, mem_additions_iff, and_iff_right member]
  exact Decidable.em (tag ∈ known)

/-- Tags that are registered again add nothing. -/
theorem additions_append_additions (known added : List String) :
    additions (known ++ additions known added) added = [] :=
  additions_eq_nil_iff.mpr fun _ member => mem_append_additions member

theorem fst_enrollAll (known added : List String) :
    (enrollAll known added).1 = known ++ additions known added := by
  induction added generalizing known with
  | nil => simp [enrollAll]
  | cons tag rest induction =>
      show (enrollAll (enroll known tag).1 rest).1 = _
      rw [induction, fst_enroll]
      by_cases member : tag ∈ known
      · rw [if_pos member, additions_cons_of_mem member]
      · rw [if_neg member, additions_cons_of_not_mem member, List.append_assoc,
          List.singleton_append]

/-- Registering gives the entry its new tags, and nothing if there are none to register. -/
theorem get?_register (pool : TagPool) (entry : String) (added : List String) (name : String) :
    (pool.register entry added).1.pools.get? name =
      if entry = name ∧ added ≠ [] then
        some (pool.tags entry ++ additions (pool.tags entry) added)
      else pool.pools.get? name := by
  unfold register
  cases added with
  | nil => simp
  | cons tag rest =>
      by_cases same : entry = name
      · simp [same, fst_enrollAll]
      · simp [same, Dict.get?_insert_of_ne _ same]

theorem tags_register (pool : TagPool) (entry : String) (added : List String) :
    (pool.register entry added).1.tags entry =
      pool.tags entry ++ additions (pool.tags entry) added := by
  rw [tags, get?_register]
  cases added with
  | nil => simp [tags]
  | cons tag rest => simp

/-- The pool after tags are registered for entries in turn. -/
def registerAll (pool : TagPool) (registrations : List (String × List String)) : TagPool :=
  registrations.foldl (fun pool registration =>
    (pool.register registration.1 registration.2).1) pool

theorem extends_registerAll (pool : TagPool) (registrations : List (String × List String)) :
    pool.Extends (pool.registerAll registrations) := by
  induction registrations generalizing pool with
  | nil => exact Extends.refl pool
  | cons registration rest induction => exact (extends_register pool _ _).trans (induction _)

end SealedCatalog.TagPool
