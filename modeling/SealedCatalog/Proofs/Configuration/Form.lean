import SealedCatalog.Configuration.Document
import SealedCatalog.Proofs.Json.Lookup
import SealedCatalog.Proofs.Marker.Yielding

/-! The form of a schema in an untrusted document. The check of the form reports nothing of exactly
the documents that have the form of some schema. -/

namespace SealedCatalog

theorem SortingMethod.ofName?_eq_some_iff {text : String} {method : SortingMethod} :
    ofName? text = some method ↔ text = method.name := by
  constructor
  · intro found
    have named := List.find?_some found
    exact (eq_of_beq named).symm
  · intro same
    rw [same]
    cases method <;> decide

theorem EntryType.ofName?_eq_some_iff {text : String} {entryType : EntryType} :
    ofName? text = some entryType ↔ text = entryType.name := by
  constructor
  · intro found
    have named := List.find?_some found
    exact (eq_of_beq named).symm
  · intro same
    rw [same]
    cases entryType <;> decide

theorem EntryType.name_inj {left right : EntryType} : left.name = right.name ↔ left = right := by
  refine ⟨fun same => ?_, congrArg _⟩
  have found := ofName?_eq_some_iff.mpr same
  rw [ofName?_eq_some_iff.mpr rfl] at found
  exact Option.some.inj found

/-- A part of a document that may be left out or null. -/
inductive Json.OrNull (form : α → Json → Prop) : Option α → Option Json → Prop where
  | absent : OrNull form none none
  | null : OrNull form none (some .null)
  | value {value : α} {document : Json} (formed : form value document) :
      OrNull form (some value) (some document)

def Json.ListsTexts (texts : List String) (document : Json) : Prop :=
  document = .array (texts.map .string)

/-- A whole number of 32 bits counts as itself, and any other number as zero. -/
def Configuration.scoreOf (number : Json) : UInt32 :=
  (wholeNumber? number).getD 0

open SealedCatalog.Configuration (scoreOf clampDimension)

/-! The form of what a schema consists of -/

inductive EntryKind.HasForm (document : Json) : EntryKind → Prop where
  | string {unique : Bool} (found : document.get? "unique" = some (.bool unique)) :
      HasForm document (.string unique)
  | tag {exclusive : Bool} (found : document.get? "exclusive" = some (.bool exclusive)) :
      HasForm document (.tag exclusive)
  | rating {score : Json} {hints : Option (List String)}
      (found : document.get? "maximum_score" = some score) (number : score.isNumber = true)
      (hinted : Json.OrNull Json.ListsTexts hints (document.get? "hints")) :
      HasForm document (.rating (scoreOf score) hints)

structure Entry.HasForm (entry : Entry) (document : Json) : Prop where
  name : document.get? "name" = some (.string entry.name)
  sortingMethod : document.get? "sorting_method" = some (.string entry.sortingMethod.name)
  optional : document.get? "optional" = some (.bool entry.optional)
  entryType : document.get? "type" = some (.string entry.entryType.name)
  kind : entry.kind.HasForm document

/-- Some number stands for the dimension. -/
def ImageSize.HasDimension (document : Json) (name : String) (dimension : UInt32) : Prop :=
  ∃ number, document.get? name = some number ∧ number.isNumber = true ∧
    clampDimension number = dimension

structure ImageSize.HasForm (size : ImageSize) (document : Json) : Prop where
  width : HasDimension document "width" size.width
  height : HasDimension document "height" size.height

structure Configuration.HasForm (configuration : Configuration) (document : Json) : Prop where
  imageSize : Json.OrNull ImageSize.HasForm configuration.imageSize (document.get? "image_size")
  entries : ∃ items, document.get? "entries" = some (.array items) ∧
    List.Forall₂ Entry.HasForm configuration.entries items

/-! What the check of the form finds -/

namespace Configuration

open Json (OrNull)

theorem isString_iff {document : Json} : document.isString = true ↔
    ∃ text, document = .string text := by
  cases document <;> simp [Json.isString]

theorem isBool_iff {document : Json} : document.isBool = true ↔
    ∃ truth, document = .bool truth := by
  cases document <;> simp [Json.isBool, -Bool.exists_bool]

variable {fields : Fields}

theorem fieldProblems_eq_nil_iff {name : String} {required : FieldType} {place : String} :
    fieldProblems fields name required place = [] ↔
      ∃ value, (Json.object fields).get? name = some value ∧ required.holds value = true := by
  rw [fieldProblems, Json.get?]
  cases Dict.findField name fields with
  | none => simp
  | some value => simp

theorem fieldProblems_string_eq_nil_iff {name place : String} :
    fieldProblems fields name .string place = [] ↔
      ∃ text, (Json.object fields).get? name = some (.string text) := by
  simp only [fieldProblems_eq_nil_iff, FieldType.holds, isString_iff]
  constructor
  · intro ⟨_, found, text, same⟩
    exact ⟨text, same ▸ found⟩
  · intro ⟨text, found⟩
    exact ⟨_, found, text, rfl⟩

theorem fieldProblems_boolean_eq_nil_iff {name place : String} :
    fieldProblems fields name .boolean place = [] ↔
      ∃ truth, (Json.object fields).get? name = some (.bool truth) := by
  simp only [fieldProblems_eq_nil_iff, FieldType.holds, isBool_iff]
  constructor
  · intro ⟨_, found, truth, same⟩
    exact ⟨truth, same ▸ found⟩
  · intro ⟨truth, found⟩
    exact ⟨_, found, truth, rfl⟩

theorem hintProblems_eq_nil_iff {position : Nat} {hints : List Json} :
    hintProblems position hints = [] ↔ ∃ labels : List String, hints = labels.map .string := by
  induction hints generalizing position with
  | nil => exact ⟨fun _ => ⟨[], rfl⟩, fun _ => rfl⟩
  | cons hint rest induction =>
      cases hint with
      | string label =>
          rw [hintProblems, induction]
          constructor
          · intro ⟨labels, same⟩
            exact ⟨label :: labels, congrArg _ same⟩
          · intro ⟨labels, same⟩
            cases labels with
            | nil => cases same
            | cons _ others => exact ⟨others, (List.cons.inj same).2⟩
      | _ =>
          refine ⟨fun none => by simp [hintProblems] at none, fun ⟨labels, same⟩ => ?_⟩
          cases labels <;> simp at same

theorem methodProblems_eq_nil_iff {text : String}
    (found : (Json.object fields).get? "sorting_method" = some (.string text)) :
    methodProblems fields = [] ↔ ∃ method : SortingMethod, text = method.name := by
  rw [Json.get?] at found
  simp only [methodProblems, found, ite_eq_left_iff, reduceCtorEq, imp_false, not_not,
    Option.isSome_iff_exists, SortingMethod.ofName?_eq_some_iff]

theorem hintFieldProblems_eq_nil_iff {part : Option Json} :
    hintFieldProblems part = [] ↔ ∃ hints, OrNull Json.ListsTexts hints part := by
  cases part with
  | none => exact ⟨fun _ => ⟨none, .absent⟩, fun _ => rfl⟩
  | some document =>
      cases document with
      | null => exact ⟨fun _ => ⟨none, .null⟩, fun _ => rfl⟩
      | array items =>
          rw [hintFieldProblems, hintProblems_eq_nil_iff]
          constructor
          · intro ⟨labels, same⟩
            exact ⟨some labels, .value (congrArg Json.array same)⟩
          · intro ⟨hints, hinted⟩
            cases hinted with
            | value formed => exact ⟨_, Json.array.inj formed⟩
      | _ =>
          refine ⟨fun none => by simp [hintFieldProblems] at none, fun ⟨hints, hinted⟩ => ?_⟩
          cases hinted with
          | value formed => cases formed

theorem kindProblems_of_hasForm {kind : EntryKind} (form : kind.HasForm (.object fields)) :
    kindProblems fields kind.entryType.name = [] := by
  rw [kindProblems, EntryType.ofName?_eq_some_iff.mpr rfl]
  cases form with
  | string found => exact fieldProblems_boolean_eq_nil_iff.mpr ⟨_, found⟩
  | tag found => exact fieldProblems_boolean_eq_nil_iff.mpr ⟨_, found⟩
  | rating found number hinted =>
      exact List.append_eq_nil_iff.mpr ⟨fieldProblems_eq_nil_iff.mpr ⟨_, found, number⟩,
        hintFieldProblems_eq_nil_iff.mpr ⟨_, hinted⟩⟩

theorem kindProblems_eq_nil_iff {text : String} :
    kindProblems fields text = [] ↔
      ∃ kind : EntryKind, text = kind.entryType.name ∧ kind.HasForm (.object fields) := by
  constructor
  · intro sound
    rw [kindProblems] at sound
    cases typed : EntryType.ofName? text with
    | none => simp [typed] at sound
    | some entryType =>
        have named := EntryType.ofName?_eq_some_iff.mp typed
        rw [typed] at sound
        cases entryType with
        | string =>
            rcases fieldProblems_boolean_eq_nil_iff.mp sound with ⟨unique, found⟩
            exact ⟨.string unique, named, .string found⟩
        | tag =>
            rcases fieldProblems_boolean_eq_nil_iff.mp sound with ⟨exclusive, found⟩
            exact ⟨.tag exclusive, named, .tag found⟩
        | rating =>
            have ⟨scored, hinted⟩ := List.append_eq_nil_iff.mp sound
            rcases fieldProblems_eq_nil_iff.mp scored with ⟨score, found, number⟩
            rcases hintFieldProblems_eq_nil_iff.mp hinted with ⟨hints, listed⟩
            exact ⟨.rating (scoreOf score) hints, named, .rating found number listed⟩
  · intro ⟨kind, named, form⟩
    rw [named]
    exact kindProblems_of_hasForm form

theorem entryShapeProblems_eq_nil_iff {document : Json} :
    entryShapeProblems document = [] ↔ ∃ entry : Entry, entry.HasForm document := by
  cases document with
  | object fields =>
      simp only [entryShapeProblems, List.append_eq_nil_iff, fieldProblems_string_eq_nil_iff,
        fieldProblems_boolean_eq_nil_iff]
      constructor
      · intro ⟨⟨⟨⟨⟨name, named⟩, text, sorted⟩, optional, missable⟩, known⟩, typed⟩
        rcases (methodProblems_eq_nil_iff sorted).mp known with ⟨method, rfl⟩
        split at typed
        next entryType typeFound =>
          rcases kindProblems_eq_nil_iff.mp typed with ⟨kind, rfl, kindForm⟩
          exact ⟨⟨name, method, optional, kind⟩, named, sorted, missable, typeFound, kindForm⟩
        next other =>
          rcases fieldProblems_string_eq_nil_iff.mp typed with ⟨entryType, typeFound⟩
          exact absurd typeFound (other entryType)
      · intro ⟨entry, form⟩
        have typeFound : Dict.findField "type" fields = some (.string entry.entryType.name) :=
          form.entryType
        rw [typeFound]
        have known := (methodProblems_eq_nil_iff form.sortingMethod).mpr ⟨_, rfl⟩
        have ofKind := kindProblems_eq_nil_iff.mpr ⟨entry.kind, rfl, form.kind⟩
        exact ⟨⟨⟨⟨⟨_, form.name⟩, _, form.sortingMethod⟩, _, form.optional⟩, known⟩, ofKind⟩
  | _ =>
      refine ⟨fun none => by simp [entryShapeProblems] at none, fun ⟨entry, form⟩ => ?_⟩
      rcases Json.exists_eq_object_of_get? form.name with ⟨fields, same⟩
      cases same

theorem entriesShapeProblems_eq_nil_iff {position : Nat} {items : List Json} :
    entriesShapeProblems position items = [] ↔
      ∃ entries : List Entry, List.Forall₂ Entry.HasForm entries items := by
  induction items generalizing position with
  | nil => exact ⟨fun _ => ⟨[], .nil⟩, fun _ => rfl⟩
  | cons item rest induction =>
      rw [entriesShapeProblems, List.append_eq_nil_iff, List.map_eq_nil_iff, induction,
        entryShapeProblems_eq_nil_iff]
      constructor
      · intro ⟨⟨entry, form⟩, entries, forms⟩
        exact ⟨entry :: entries, .cons form forms⟩
      · intro ⟨entries, forms⟩
        cases forms with
        | cons form others => exact ⟨⟨_, form⟩, _, others⟩

theorem entryFieldProblems_eq_nil_iff {part : Option Json} :
    entryFieldProblems part = [] ↔ ∃ entries : List Entry, ∃ items, part = some (.array items) ∧
      List.Forall₂ Entry.HasForm entries items := by
  cases part with
  | none => simp [entryFieldProblems]
  | some document =>
      cases document with
      | array items => simp [entryFieldProblems, entriesShapeProblems_eq_nil_iff]
      | _ => simp [entryFieldProblems]

theorem sizeFieldProblems_eq_nil_iff {part : Option Json} :
    sizeFieldProblems part = [] ↔
      ∃ size, OrNull ImageSize.HasForm size part := by
  cases part with
  | none => exact ⟨fun _ => ⟨none, .absent⟩, fun _ => rfl⟩
  | some document =>
      cases document with
      | null => exact ⟨fun _ => ⟨none, .null⟩, fun _ => rfl⟩
      | object fields =>
          rw [sizeFieldProblems, List.append_eq_nil_iff, fieldProblems_eq_nil_iff,
            fieldProblems_eq_nil_iff]
          constructor
          · intro ⟨⟨width, wide, widthNumber⟩, height, high, heightNumber⟩
            exact ⟨some ⟨clampDimension width, clampDimension height⟩,
              .value ⟨⟨width, wide, widthNumber, rfl⟩, ⟨height, high, heightNumber, rfl⟩⟩⟩
          · intro ⟨size, sized⟩
            cases sized with
            | value form =>
                rcases form.width with ⟨width, wide, widthNumber, _⟩
                rcases form.height with ⟨height, high, heightNumber, _⟩
                exact ⟨⟨width, wide, widthNumber⟩, height, high, heightNumber⟩
      | _ =>
          refine ⟨fun none => by simp [sizeFieldProblems] at none, fun ⟨size, sized⟩ => ?_⟩
          cases sized with
          | value form =>
              rcases form.width with ⟨width, wide, _⟩
              cases wide

/-- The check of the form reports nothing of exactly the objects that have the form of a schema. -/
theorem shapeProblems_eq_nil_iff :
    shapeProblems fields = [] ↔
      ∃ configuration : Configuration, configuration.HasForm (.object fields) := by
  rw [shapeProblems, List.append_eq_nil_iff, entryFieldProblems_eq_nil_iff,
    sizeFieldProblems_eq_nil_iff]
  constructor
  · intro ⟨⟨entries, listed⟩, size, sized⟩
    exact ⟨⟨size, entries⟩, sized, listed⟩
  · intro ⟨configuration, form⟩
    exact ⟨⟨_, form.entries⟩, _, form.imageSize⟩

end Configuration

end SealedCatalog
