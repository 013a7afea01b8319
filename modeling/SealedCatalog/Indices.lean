/-!
Sets of natural numbers as ascending lists without repetition.
-/

namespace SealedCatalog.Indices

/-- Put an index into an ascending list, if it is not there yet. -/
def insert (index : Nat) : List Nat → List Nat
  | [] => [index]
  | head :: rest =>
      if index < head then index :: head :: rest
      else if index = head then head :: rest
      else head :: insert index rest

def sorted (indices : List Nat) : List Nat :=
  indices.foldr insert []

theorem mem_insert {index other : Nat} {indices : List Nat} :
    other ∈ insert index indices ↔ other = index ∨ other ∈ indices := by
  induction indices with
  | nil => simp [insert]
  | cons head rest induction =>
      simp only [insert]
      split
      · simp
      · split
        next same => subst same; simp
        next => simp [induction, or_left_comm]

theorem ascending_insert {index : Nat} {indices : List Nat}
    (ascending : indices.Pairwise (· < ·)) : (insert index indices).Pairwise (· < ·) := by
  induction indices with
  | nil => simp [insert]
  | cons head rest induction =>
      have ⟨below, tail⟩ := List.pairwise_cons.mp ascending
      simp only [insert]
      split
      next less =>
        refine List.pairwise_cons.mpr ⟨?_, ascending⟩
        intro other member
        rcases List.mem_cons.mp member with same | later
        · exact same ▸ less
        · exact Nat.lt_trans less (below other later)
      next notLess =>
        split
        · exact ascending
        next different =>
          refine List.pairwise_cons.mpr ⟨?_, induction tail⟩
          intro other member
          rcases mem_insert.mp member with same | later
          · omega
          · exact below other later

theorem mem_sorted {indices : List Nat} {index : Nat} :
    index ∈ sorted indices ↔ index ∈ indices := by
  induction indices with
  | nil => simp [sorted]
  | cons head rest induction =>
      simp only [sorted, List.foldr_cons] at induction ⊢
      rw [mem_insert, induction, List.mem_cons]

theorem ascending_sorted (indices : List Nat) : (sorted indices).Pairwise (· < ·) := by
  induction indices with
  | nil => simp [sorted]
  | cons head rest induction => exact ascending_insert induction

end SealedCatalog.Indices
