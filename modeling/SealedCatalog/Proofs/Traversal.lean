import Mathlib.Data.List.Perm.Basic

/-! Going through a list with a step that may fail. -/

namespace SealedCatalog

theorem mapM_eq_some_iff {step : α → Option β} {items : List α} {results : List β} :
    items.mapM step = some results ↔
      List.Forall₂ (fun item result => step item = some result) items results := by
  induction items generalizing results with
  | nil =>
      cases results with
      | nil => simp
      | cons => simp
  | cons item rest induction =>
      rw [List.mapM_cons]
      simp only [Option.bind_eq_bind, Option.bind_eq_some_iff, Option.pure_def, Option.some.injEq]
      cases results with
      | nil => simp
      | cons result others =>
          rw [List.forall₂_cons, ← induction]
          constructor
          · rintro ⟨first, stepped, more, succeeded, same⟩
            cases same
            exact ⟨stepped, succeeded⟩
          · rintro ⟨stepped, succeeded⟩
            exact ⟨result, stepped, others, succeeded, rfl⟩

/-- Two steps in turn go through a list as their combination does. -/
theorem mapM_bind_mapM (first : α → Option β) (second : β → Option γ) (items : List α) :
    (items.mapM first).bind (List.mapM second) =
      items.mapM fun item => (first item).bind second := by
  induction items with
  | nil => rfl
  | cons item rest induction =>
      rw [List.mapM_cons, List.mapM_cons, ← induction]
      cases first item with
      | none => rfl
      | some between =>
          cases rest.mapM first with
          | none => cases stepped : second between <;> simp [stepped]
          | some others => simp

theorem exists_of_mem_mapM {step : α → Option β} {items : List α} {results : List β}
    (succeeded : items.mapM step = some results) {result : β} (member : result ∈ results) :
    ∃ item ∈ items, step item = some result := by
  induction mapM_eq_some_iff.mp succeeded with
  | nil => simp at member
  | @cons item first rest _ stepped others induction =>
      rcases List.mem_cons.mp member with same | later
      · exact ⟨item, List.mem_cons_self, same ▸ stepped⟩
      · rcases induction (mapM_eq_some_iff.mpr others) later with ⟨found, foundMember, same⟩
        exact ⟨found, List.mem_cons_of_mem _ foundMember, same⟩

theorem exists_of_mapM_of_mem {step : α → Option β} {items : List α} {results : List β}
    (succeeded : items.mapM step = some results) {item : α} (member : item ∈ items) :
    ∃ result ∈ results, step item = some result := by
  induction mapM_eq_some_iff.mp succeeded with
  | nil => simp at member
  | @cons _ first _ rest stepped others induction =>
      rcases List.mem_cons.mp member with same | later
      · exact ⟨first, List.mem_cons_self, same ▸ stepped⟩
      · rcases induction (mapM_eq_some_iff.mpr others) later with ⟨found, foundMember, same⟩
        exact ⟨found, List.mem_cons_of_mem _ foundMember, same⟩

/-- The results stand in the places of their items. -/
theorem exists_getElem?_of_mapM {step : α → Option β} {items : List α} {results : List β}
    (succeeded : items.mapM step = some results) {place : Nat} {result : β}
    (there : results[place]? = some result) :
    ∃ item, items[place]? = some item ∧ step item = some result := by
  induction mapM_eq_some_iff.mp succeeded generalizing place with
  | nil => simp at there
  | @cons item first rest _ stepped others induction =>
      cases place with
      | zero =>
          rw [List.getElem?_cons_zero, Option.some.injEq] at there
          exact ⟨item, rfl, there ▸ stepped⟩
      | succ place => exact induction (mapM_eq_some_iff.mpr others) there

theorem isSome_mapM_iff {step : α → Option β} {items : List α} :
    (items.mapM step).isSome = true ↔ ∀ item ∈ items, (step item).isSome = true := by
  induction items with
  | nil => simp
  | cons item rest induction =>
      rw [List.mapM_cons, List.forall_mem_cons, ← induction]
      cases step item <;> cases rest.mapM step <;> simp

theorem forall_mem_mapM_iff {step : α → Option β} {items : List α} {results : List β}
    (succeeded : items.mapM step = some results) {property : β → Prop} :
    (∀ result ∈ results, property result) ↔
      ∀ item ∈ items, ∃ result, step item = some result ∧ property result := by
  constructor
  · intro each item member
    rcases exists_of_mapM_of_mem succeeded member with ⟨result, resultMember, stepped⟩
    exact ⟨result, stepped, each result resultMember⟩
  · intro each result member
    rcases exists_of_mem_mapM succeeded member with ⟨item, itemMember, stepped⟩
    rcases each item itemMember with ⟨same, again, holds⟩
    exact Option.some.inj (again.symm.trans stepped) ▸ holds

theorem exists_mem_mapM_iff {step : α → Option β} {items : List α} {results : List β}
    (succeeded : items.mapM step = some results) {property : β → Prop} :
    (∃ result ∈ results, property result) ↔
      ∃ item ∈ items, ∃ result, step item = some result ∧ property result := by
  constructor
  · intro ⟨result, member, holds⟩
    rcases exists_of_mem_mapM succeeded member with ⟨item, itemMember, stepped⟩
    exact ⟨item, itemMember, result, stepped, holds⟩
  · intro ⟨item, member, result, stepped, holds⟩
    rcases exists_of_mapM_of_mem succeeded member with ⟨found, foundMember, again⟩
    exact ⟨result, Option.some.inj (again.symm.trans stepped) ▸ foundMember, holds⟩

/-- A step that keeps some part of an item keeps the list of those parts. -/
theorem map_eq_of_mapM {step : α → Option β} {part : α → γ} {kept : β → γ}
    (keeps : ∀ item result, step item = some result → kept result = part item)
    {items : List α} {results : List β} (succeeded : items.mapM step = some results) :
    results.map kept = items.map part := by
  induction mapM_eq_some_iff.mp succeeded with
  | nil => rfl
  | cons stepped others induction =>
      rw [List.map_cons, List.map_cons, keeps _ _ stepped,
        induction (mapM_eq_some_iff.mpr others)]

/-- In another order the same steps succeed, with the same results in another order. -/
theorem exists_perm_of_mapM {step : α → Option β} {items others : List α} {results : List β}
    (perm : items.Perm others) (succeeded : items.mapM step = some results) :
    ∃ moved, others.mapM step = some moved ∧ results.Perm moved := by
  rcases List.perm_comp_forall₂ perm.symm (mapM_eq_some_iff.mp succeeded) with
      ⟨moved, stepped, order⟩
  exact ⟨moved, mapM_eq_some_iff.mpr stepped, order.symm⟩

/-- Every result is the given one exactly when every step gives it. -/
theorem mapM_map_eq_some_iff {write : α → γ} {read : γ → Option α} {values : List α} :
    (values.map write).mapM read = some values ↔
      ∀ value ∈ values, read (write value) = some value := by
  rw [mapM_eq_some_iff, List.forall₂_map_left_iff, List.forall₂_same]

end SealedCatalog
