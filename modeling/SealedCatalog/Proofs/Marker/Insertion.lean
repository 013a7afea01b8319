import SealedCatalog.Proofs.Dict
import SealedCatalog.Proofs.Marker.Settling

/-! A field among the others of an object. A reader of structures that takes a field for one part of
what it reads does so wherever the field stands, with its markers revived and without. -/

namespace SealedCatalog.Json

/-- Settling puts a field whose name no other has with the settled others. -/
theorem settle_object_insert {name : String} {document settled : Json}
    {before after others : List (String × Json)}
    (absent : ∀ field ∈ before ++ after, field.1 ≠ name)
    (here : settle document = some settled)
    (there : settle (object (before ++ after)) = some (object others)) :
    ∃ fields, settle (object (before ++ (name, document) :: after)) = some (object fields) ∧
      ((name, settled) :: others).Perm fields ∧ ∀ field ∈ others, field.1 ≠ name := by
  have canonicalAbsent : ∀ field ∈ before.map canonicalField ++ after.map canonicalField,
      field.1 ≠ name := by
    rw [← List.map_append]
    exact List.forall_mem_map.mpr absent
  have inOrder : Dict.insertFields [] ((before ++ (name, document) :: after).map canonicalField) =
      Dict.insertField name document.canonical
        (Dict.insertFields [] ((before ++ after).map canonicalField)) := by
    rw [List.map_append, List.map_cons, List.map_append, ← Dict.toList_ofList, ← Dict.toList_ofList]
    exact congrArg Dict.toList (Dict.ofList_insert document.canonical canonicalAbsent)
  have keysApart : ∀ field ∈ Dict.insertFields [] ((before ++ after).map canonicalField),
      field.1 ≠ name := by
    intro field member
    rcases exists_of_mem_canonical member with ⟨original, inside, rfl⟩
    exact absent original inside
  rw [settle_object] at there
  rcases Option.map_eq_some_iff.mp there with ⟨results, found, same⟩
  cases same
  have both : ((name, document.canonical) ::
      Dict.insertFields [] ((before ++ after).map canonicalField)).mapM reviveField =
        some ((name, settled) :: others) := by
    have first : reviveField (name, document.canonical) = some (name, settled) := by
      rw [reviveField]
      exact congrArg (Option.map (name, ·)) here
    rw [List.mapM_cons, first, found]
    rfl
  have moved := (Dict.perm_insertField keysApart document.canonical).symm
  rcases exists_perm_of_mapM moved both with ⟨fields, ordered, perm⟩
  refine ⟨fields, by rw [settle_object, inOrder, ordered, Option.map_some], perm, ?_⟩
  intro field member
  rcases exists_of_mem_mapM found member with ⟨original, inside, revived⟩
  rcases Option.map_eq_some_iff.mp revived with ⟨value, _, rfl⟩
  exact keysApart original inside

/-- What a reader makes of an object with a field of the name is what it makes of the object without
that field, with the item of the field put in. -/
def Takes (read : Json → Option α) (name : String) (item? : Json → Option β) (put : β → α → α) :
    Prop :=
  ∀ (fields : List (String × Json)) (document : Json) (value : α) (item : β),
    (∀ field ∈ fields, field.1 ≠ name) → read (object fields) = some value →
      item? document = some item →
        read (object ((name, document) :: fields)) = some (put item value)

section Field

variable {α β : Type} {read : Json → Option α} {name : String} {item? : Json → Option β}
  {put : β → α → α} (ignores : IgnoresOrder read) (takes : Takes read name item? put)
  {before after : List (String × Json)} (absent : ∀ field ∈ before ++ after, field.1 ≠ name)
  {document : Json} {item : β} {value : α}

include ignores takes absent

theorem Takes.plain (given : item? document = some item)
    (others : read (object (before ++ after)) = some value) :
    read (object (before ++ (name, document) :: after)) = some (put item value) := by
  rw [ignores _ _ List.perm_middle]
  exact takes _ document value item absent others given

theorem Takes.revived (given : Yields document item? item)
    (others : Yields (object (before ++ after)) read value) :
    Yields (object (before ++ (name, document) :: after)) read (put item value) := by
  rcases yields_iff.mp given with ⟨settled, here, itemRead⟩
  rcases yields_iff.mp others with ⟨rest, there, valueRead⟩
  obtain ⟨fields, rfl⟩ : ∃ fields, rest = object fields := by
    rw [settle_object] at there
    rcases Option.map_eq_some_iff.mp there with ⟨fields, _, same⟩
    exact ⟨fields, same.symm⟩
  rcases settle_object_insert absent here there with ⟨whole, found, perm, restAbsent⟩
  refine yields_iff.mpr ⟨object whole, found, ?_⟩
  rw [← ignores _ _ perm]
  exact takes fields settled value item restAbsent valueRead itemRead

end Field

section Absent

variable {name : String} {fields : List (String × Json)}
  (absent : ∀ field ∈ fields, field.1 ≠ name)

include absent

private theorem filter_of_absent :
    fields.filter (fun field => [name].contains field.1) = [] := by
  refine List.filter_eq_nil_iff.mpr fun field member => ?_
  simpa using absent field member

theorem field?_of_absent : field? [name] fields = some none := by
  rw [field?, filter_of_absent absent]

theorem field?_cons_self (document : Json) :
    field? [name] ((name, document) :: fields) = some (some document) := by
  rw [field?, List.filter_cons_of_pos (by simp), filter_of_absent absent]

end Absent

theorem field?_cons_of_not_mem {name : String} {spellings : List String} (apart : name ∉ spellings)
    (document : Json) (fields : List (String × Json)) :
    field? spellings ((name, document) :: fields) = field? spellings fields := by
  rw [field?, List.filter_cons_of_neg (by simpa using apart), ← field?]

/-- The parts that are asked for by other names stay. -/
private theorem mapM_field?_cons {name : String} {names : List (List String)}
    (apart : ∀ spellings ∈ names, name ∉ spellings) (document : Json)
    {fields : List (String × Json)} {parts : List (Option Json)}
    (found : (names.mapM fun spellings => field? spellings fields) = some parts) :
    (names.mapM fun spellings => field? spellings ((name, document) :: fields)) = some parts := by
  have both := (List.forall₂_and_left _ _).mpr ⟨apart, mapM_eq_some_iff.mp found⟩
  refine mapM_eq_some_iff.mpr (both.imp fun spellings part same => ?_)
  rw [field?_cons_of_not_mem same.1, same.2]

/-- The part of a structure that has a name for itself is taken from the field of that name. -/
theorem takes_fields? {α β : Type} {name : String} {before after : List (List String)}
    (apart : ∀ spellings ∈ before ++ after, name ∉ spellings)
    {assemble : List (Option Json) → Option α} {item? : Json → Option β} {put : β → α → α}
    (puts : ∀ left right document value item, left.length = before.length →
      right.length = after.length → assemble (left ++ none :: right) = some value →
        item? document = some item →
          assemble (left ++ some document :: right) = some (put item value)) :
    Takes (fun document => (fields? (before ++ [name] :: after) document).bind assemble) name item?
      put := by
  intro fields document value item absent read given
  have ⟨beforeApart, afterApart⟩ := List.forall_mem_append.mp apart
  rcases Option.bind_eq_some_iff.mp read with ⟨parts, found, assembled⟩
  simp only [fields?, List.mapM_append, List.mapM_cons, field?_of_absent absent,
    Option.bind_eq_bind, Option.bind_some, Option.bind_eq_some_iff, Option.pure_def,
    Option.some.injEq] at found
  rcases found with ⟨left, leftFound, _, ⟨right, rightFound, rfl⟩, rfl⟩
  have lengths := (mapM_eq_some_iff.mp leftFound).length_eq
  have rightLengths := (mapM_eq_some_iff.mp rightFound).length_eq
  refine Option.bind_eq_some_iff.mpr ⟨left ++ some document :: right, ?_, ?_⟩
  · simp only [fields?, List.mapM_append, List.mapM_cons, field?_cons_self absent document,
      mapM_field?_cons beforeApart document leftFound,
      mapM_field?_cons afterApart document rightFound]
    rfl
  · exact puts left right document value item lengths.symm rightLengths.symm assembled given

end SealedCatalog.Json
