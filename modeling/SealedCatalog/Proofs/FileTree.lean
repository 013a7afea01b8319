import SealedCatalog.FileTree

/-! Files that were written. What is written to a path is what is read from it afterwards. -/

namespace SealedCatalog

/-- The key of the file that stands at a place, or that may be made there. -/
def Place.key? : Place → Option String
  | file key _ => some key
  | free key => some key
  | directory => none
  | nowhere _ => none

namespace FileTree

variable {tree : FileTree} {above names : List String} {key : String}

theorem get?_ne_directory_of_follow (leads : (tree.follow above names).key? = some key) :
    tree.nodes.get? key ≠ some .directory := by
  fun_induction tree.follow above names with
  | case1 | case4 | case7 | case9 => cases leads
  | case2 _ _ _ _ induction | case3 _ _ _ induction | case5 _ _ _ _ _ _ _ induction =>
      exact induction leads
  | case6 _ _ _ _ _ _ _ found =>
      cases leads
      simp [found]
  | case8 _ _ _ _ _ _ absent =>
      cases leads
      simp [absent]

/-- The names that lead to a file, or to the place of one, lead to what is put there. The
directories on the way are others than the file, so that they stay. -/
theorem follow_put (leads : (tree.follow above names).key? = some key) (content : Bytes) :
    (tree.put key (.file content)).follow above names = .file key content := by
  have notDirectory := get?_ne_directory_of_follow leads
  have here : (tree.put key (.file content)).nodes.get? key = some (.file content) :=
    tree.nodes.get?_insert_self key _
  fun_induction tree.follow above names with
  | case1 | case4 | case7 | case9 => cases leads
  | case2 _ _ _ skipped induction =>
      unfold follow
      rw [if_pos skipped]
      exact induction leads
  | case3 _ _ named induction =>
      unfold follow
      rw [if_neg named, if_pos rfl]
      exact induction leads
  | case5 above name rest named down short found induction =>
      have other : key ≠ FileTree.key (name :: above) := fun same => notDirectory (same ▸ found)
      have kept : (tree.put key (.file content)).nodes.get? (FileTree.key (name :: above)) =
          some .directory := (Dict.get?_insert_of_ne _ other _).trans found
      unfold follow
      rw [if_neg named, if_neg down, if_neg short, kept]
      exact induction leads
  | case6 above name rest named down short _ _ last
  | case8 above name rest named down short _ last =>
      cases leads
      unfold follow
      rw [if_neg named, if_neg down, if_neg short, here]
      exact if_pos last

theorem write_eq_ok_iff {path : String} {content : Bytes} {written : FileTree} :
    tree.write path content = .ok written ↔
      ∃ key, (tree.place path).key? = some key ∧ tree.put key (.file content) = written := by
  unfold write
  cases tree.place path <;> simp [Place.key?]

theorem content_of_write {path : String} {content : Bytes} {written : FileTree}
    (succeeded : tree.write path content = .ok written) : written.content path = .ok content := by
  rcases write_eq_ok_iff.mp succeeded with ⟨key, leads, rfl⟩
  have placed : (tree.put key (.file content)).place path = .file key content := by
    unfold place at leads ⊢
    by_cases unsound : path.contains '\x00' = true
    · rw [if_pos unsound] at leads
      cases leads
    by_cases nameless : path = ""
    · rw [if_neg unsound, if_pos nameless] at leads
      cases leads
    · rw [if_neg unsound, if_neg nameless] at leads ⊢
      exact follow_put leads content
  rw [FileTree.content, placed]

end FileTree

end SealedCatalog
