import SealedCatalog.Path

/-! Names of children. A path is its own file name exactly if it is a bare name, and taken from a
directory such a name leads to a child of it. -/

namespace SealedCatalog.Path

/-- Nothing in the name leads to another place than a child of the directory it is taken from. -/
def IsBareName (name : String) : Prop :=
  name ≠ "" ∧ '/' ∉ name.toList ∧ name ≠ "." ∧ name ≠ ".."

instance (name : String) : Decidable (IsBareName name) :=
  inferInstanceAs (Decidable (_ ∧ _ ∧ _ ∧ _))

/-! ## Bare names -/

theorem not_mem_of_mem_splitOn {path piece : List Char} (member : piece ∈ path.splitOn '/') :
    '/' ∉ piece := by
  induction path generalizing piece with
  | nil =>
      rw [List.splitOn_nil, List.mem_singleton] at member
      exact member ▸ List.not_mem_nil
  | cons char rest induction =>
      rw [List.splitOn_cons_eq_if_modifyHead] at member
      split at member
      · rcases List.mem_cons.mp member with rfl | later
        · exact List.not_mem_nil
        · exact induction later
      next other =>
        obtain ⟨first, others, split⟩ := List.exists_cons_of_ne_nil (List.splitOn_ne_nil '/' rest)
        rw [split] at member induction
        rcases List.mem_cons.mp member with rfl | later
        · intro slash
          rcases List.mem_cons.mp slash with rfl | inside
          · exact other (beq_self_eq_true '/')
          · exact induction List.mem_cons_self inside
        · exact induction (List.mem_cons_of_mem _ later)

theorem part?_eq_name_iff {piece : List Char} {name : String} :
    part? piece = some (Part.name name) ↔
      name.toList = piece ∧ name ≠ "" ∧ name ≠ "." ∧ name ≠ ".." := by
  constructor
  · intro found
    rw [part?] at found
    split at found
    · cases found
    · split at found
      · cases found
      next plain dots =>
        cases found
        have apart : ∀ text : String, text.toList ≠ piece → String.ofList piece ≠ text := by
          rintro text different rfl
          exact different String.toList_ofList
        refine ⟨String.toList_ofList, apart _ ?_, apart _ ?_, apart _ ?_⟩ <;> grind
  · rintro ⟨rfl, nonempty, noDot, noDots⟩
    have apart : ∀ text : String, name ≠ text → name.toList ≠ text.toList := fun text different same =>
      different (String.toList_inj.mp same)
    have noText := apart "" nonempty
    have notDot := apart "." noDot
    have notDots := apart ".." noDots
    rw [part?, String.ofList_toList]
    simp_all

theorem IsBareName.head?_ne {name : String} (bare : IsBareName name) :
    name.toList.head? ≠ some '/' :=
  fun first => bare.2.1 (List.mem_of_head? first)

theorem IsBareName.filterMap_part? {name : String} (bare : IsBareName name) :
    (name.toList.splitOn '/').filterMap part? = [Part.name name] := by
  rcases bare with ⟨nonempty, noSlash, noDot, noDots⟩
  have piece : part? name.toList = some (Part.name name) :=
    part?_eq_name_iff.mpr ⟨rfl, nonempty, noDot, noDots⟩
  rw [List.splitOn_eq_singleton noSlash, List.filterMap_cons_some piece, List.filterMap_nil]

theorem parts_of_isBareName {name : String} (bare : IsBareName name) :
    parts name = [Part.name name] := by
  have noDot : name.toList ≠ ['.'] := fun dot => bare.2.2.1 (String.toList_inj.mp dot)
  have nothing : leading name.toList = [] := by
    rw [leading, if_neg bare.head?_ne, List.splitOn_eq_singleton bare.2.1, List.head?_cons,
      if_neg (mt Option.some.inj noDot)]
  rw [parts, nothing, bare.filterMap_part?, List.nil_append]

/-- Names within paths are bare. -/
theorem isBareName_of_mem_parts {path name : String} (member : Part.name name ∈ parts path) :
    IsBareName name := by
  rcases List.mem_append.mp member with first | inside
  · unfold leading at first
    split at first
    · cases List.mem_singleton.mp first
    · split at first
      · cases List.mem_singleton.mp first
      · cases first
  · obtain ⟨piece, listed, named⟩ := List.mem_filterMap.mp inside
    obtain ⟨rfl, nonempty, noDot, noDots⟩ := part?_eq_name_iff.mp named
    exact ⟨nonempty, not_mem_of_mem_splitOn listed, noDot, noDots⟩

theorem fileName?_eq_self_iff {name : String} : fileName? name = some name ↔ IsBareName name := by
  constructor
  · intro found
    rw [fileName?] at found
    split at found
    next last =>
      cases found
      exact isBareName_of_mem_parts (List.mem_of_getLast? last)
    · cases found
  · intro bare
    rw [fileName?, parts_of_isBareName bare]
    rfl

/-! ## Children of a directory -/

/-- A path goes on with a slash as it began. -/
theorem leading_append {path : List Char} (nonempty : path ≠ []) (rest : List Char) :
    leading (path ++ '/' :: rest) = leading path := by
  obtain ⟨first, _, begins⟩ := List.exists_cons_of_ne_nil nonempty
  obtain ⟨piece, _, splits⟩ := List.exists_cons_of_ne_nil (List.splitOn_ne_nil '/' path)
  rw [leading, leading, List.splitOn_append_cons_self, splits, begins]
  rfl

/-- A slash, whether written in between or the directory's last character, starts a part. -/
theorem parts_append_slash {front : List Char} {name : String} (bare : IsBareName name) :
    leading (front ++ '/' :: name.toList) ++
        ((front ++ '/' :: name.toList).splitOn '/').filterMap part? =
      leading (front ++ ['/']) ++ (front.splitOn '/').filterMap part? ++ [Part.name name] := by
  have begins : leading (front ++ '/' :: name.toList) = leading (front ++ ['/']) := by
    cases front with
    | nil => rfl
    | cons first rest =>
        rw [leading_append (List.cons_ne_nil first rest),
          leading_append (List.cons_ne_nil first rest)]
  rw [begins, List.splitOn_append_cons_self, List.filterMap_append, bare.filterMap_part?,
    List.append_assoc]

/-- A bare name taken from a directory leads to the directory's child of that name. -/
theorem parts_join (directory : String) {name : String} (bare : IsBareName name) :
    parts (join directory name) = parts directory ++ [Part.name name] := by
  rw [join, if_neg bare.head?_ne]
  split
  next ends =>
    rcases Decidable.em (directory = "") with rfl | nonempty
    · rw [String.empty_append, parts_of_isBareName bare]
      rfl
    · have slash : directory.toList.getLast? = some '/' := by simpa [nonempty] using ends
      obtain ⟨front, written⟩ := List.getLast?_eq_some_iff.mp slash
      have trailing : ((front ++ ['/']).splitOn '/').filterMap part? =
          (front.splitOn '/').filterMap part? := by
        rw [List.splitOn_append_cons_self, List.filterMap_append]
        exact List.append_nil _
      rw [parts, parts, String.toList_append, written, trailing, List.append_assoc]
      exact parts_append_slash bare
  next ends =>
    have nonempty : directory.toList ≠ [] := by
      intro nothing
      exact ends (by simp [String.toList_eq_nil_iff.mp nothing])
    have written : (directory ++ "/" ++ name).toList = directory.toList ++ '/' :: name.toList := by
      simp
    rw [parts, written, parts_append_slash bare, leading_append nonempty]
    rfl

end SealedCatalog.Path
