import SealedCatalog.Json.Shape
import SealedCatalog.Proofs.Json.Float

/-! Induction over documents, the depth of a document, documents whose numbers can be written, and
documents whose numbers are integers. -/

namespace SealedCatalog.Json

@[induction_eliminator]
theorem inductionOn {motive : Json → Prop} (null : motive .null)
    (bool : ∀ value, motive (.bool value)) (int : ∀ value, motive (.int value))
    (float : ∀ value, motive (.float value)) (string : ∀ value, motive (.string value))
    (array : ∀ items, (∀ item ∈ items, motive item) → motive (.array items))
    (object : ∀ fields, (∀ field ∈ fields, motive field.2) → motive (.object fields)) :
    ∀ document, motive document
  | .null => null
  | .bool value => bool value
  | .int value => int value
  | .float value => float value
  | .string value => string value
  | .array items => array items fun item _ =>
      inductionOn null bool int float string array object item
  | .object fields => object fields fun field _ =>
      inductionOn null bool int float string array object field.2
termination_by document => sizeOf document
decreasing_by
  · have smaller := List.sizeOf_lt_of_mem ‹item ∈ items›
    simp only [Json.array.sizeOf_spec]
    omega
  · have smaller := List.sizeOf_lt_of_mem ‹field ∈ fields›
    have part : sizeOf field.2 < sizeOf field := by
      cases field
      simp only [Prod.mk.sizeOf_spec]
      omega
    simp only [Json.object.sizeOf_spec]
    omega

mutual

/-- The number of arrays and objects that are open at once where the document is deepest. -/
def depth : Json → Nat
  | array items => itemsDepth items + 1
  | object fields => fieldsDepth fields + 1
  | _ => 0

def itemsDepth : List Json → Nat
  | [] => 0
  | item :: rest => max (depth item) (itemsDepth rest)

def fieldsDepth : List (String × Json) → Nat
  | [] => 0
  | (_, value) :: rest => max (depth value) (fieldsDepth rest)

end

/-- All numbers of the document are integers of 64 bits or finite. -/
inductive IsWritable : Json → Prop where
  | null : IsWritable null
  | bool (value : Bool) : IsWritable (bool value)
  | int {value : Int} (storable : IsStorable value) : IsWritable (int value)
  | float {value : Number.Binary64} (finite : value.isFinite = true) : IsWritable (float value)
  | string (value : String) : IsWritable (string value)
  | array {items : List Json} (each : ∀ item ∈ items, IsWritable item) : IsWritable (array items)
  | object {fields : List (String × Json)} (each : ∀ field ∈ fields, IsWritable field.2) :
      IsWritable (object fields)

theorem isWritable_array_iff {items : List Json} :
    IsWritable (array items) ↔ ∀ item ∈ items, IsWritable item :=
  ⟨fun | .array each => each, .array⟩

theorem isWritable_object_iff {fields : List (String × Json)} :
    IsWritable (object fields) ↔ ∀ field ∈ fields, IsWritable field.2 :=
  ⟨fun | .object each => each, .object⟩

mutual

/-- The document that is read from the text of a document. -/
def reread : Json → Json
  | float value => float (rereadNumber value)
  | array items => array (rereadItems items)
  | object fields => object (rereadFields fields)
  | other => other

def rereadItems : List Json → List Json
  | [] => []
  | item :: rest => reread item :: rereadItems rest

def rereadFields : List (String × Json) → List (String × Json)
  | [] => []
  | (key, value) :: rest => (key, reread value) :: rereadFields rest

end

theorem rereadItems_eq_map (items : List Json) : rereadItems items = items.map reread := by
  induction items with
  | nil => rfl
  | cons item rest induction => rw [rereadItems, induction, List.map_cons]

theorem rereadFields_eq_map (fields : List (String × Json)) :
    rereadFields fields = fields.map fun field => (field.1, reread field.2) := by
  induction fields with
  | nil => rfl
  | cons field rest induction => rw [rereadFields, induction, List.map_cons]

theorem reread_array (items : List Json) : reread (array items) = array (items.map reread) := by
  rw [reread, rereadItems_eq_map]

theorem reread_object (fields : List (String × Json)) :
    reread (object fields) = object (fields.map fun field => (field.1, reread field.2)) := by
  rw [reread, rereadFields_eq_map]

/-- All numbers of the document are integers of 64 bits. -/
inductive IsIntegral : Json → Prop where
  | null : IsIntegral null
  | bool (value : Bool) : IsIntegral (bool value)
  | int {value : Int} (storable : IsStorable value) : IsIntegral (int value)
  | string (value : String) : IsIntegral (string value)
  | array {items : List Json} (each : ∀ item ∈ items, IsIntegral item) : IsIntegral (array items)
  | object {fields : List (String × Json)} (each : ∀ field ∈ fields, IsIntegral field.2) :
      IsIntegral (object fields)

theorem isIntegral_array_iff {items : List Json} :
    IsIntegral (array items) ↔ ∀ item ∈ items, IsIntegral item :=
  ⟨fun | .array each => each, .array⟩

theorem isIntegral_object_iff {fields : List (String × Json)} :
    IsIntegral (object fields) ↔ ∀ field ∈ fields, IsIntegral field.2 :=
  ⟨fun | .object each => each, .object⟩

theorem IsIntegral.isWritable {document : Json} (integral : IsIntegral document) :
    IsWritable document := by
  induction integral with
  | null => exact .null
  | bool value => exact .bool value
  | int storable => exact .int storable
  | string value => exact .string value
  | array _ induction => exact .array induction
  | object _ induction => exact .object induction

/-- Integers are written with all their digits. -/
theorem IsIntegral.reread_eq {document : Json} (integral : IsIntegral document) :
    document.reread = document := by
  induction integral with
  | @array items _ induction =>
      have same : items.map reread = items.map id :=
        List.map_congr_left fun item member => induction item member
      rw [reread_array, same, List.map_id]
  | @object fields _ induction =>
      have same : (fields.map fun field => (field.1, reread field.2)) = fields.map id :=
        List.map_congr_left fun field member => Prod.ext rfl (induction field member)
      rw [reread_object, same, List.map_id]
  | _ => rfl

theorem itemsDepth_le_iff {items : List Json} {limit : Nat} :
    itemsDepth items ≤ limit ↔ ∀ item ∈ items, depth item ≤ limit := by
  induction items with
  | nil => simp [itemsDepth]
  | cons item rest induction => rw [itemsDepth, Nat.max_le, induction, List.forall_mem_cons]

theorem fieldsDepth_le_iff {fields : List (String × Json)} {limit : Nat} :
    fieldsDepth fields ≤ limit ↔ ∀ field ∈ fields, depth field.2 ≤ limit := by
  induction fields with
  | nil => simp [fieldsDepth]
  | cons field rest induction => rw [fieldsDepth, Nat.max_le, induction, List.forall_mem_cons]

theorem depth_array_le_iff {items : List Json} {limit : Nat} :
    depth (array items) ≤ limit + 1 ↔ ∀ item ∈ items, depth item ≤ limit := by
  rw [depth, Nat.add_le_add_iff_right, itemsDepth_le_iff]

theorem depth_object_le_iff {fields : List (String × Json)} {limit : Nat} :
    depth (object fields) ≤ limit + 1 ↔ ∀ field ∈ fields, depth field.2 ≤ limit := by
  rw [depth, Nat.add_le_add_iff_right, fieldsDepth_le_iff]

/-- The text of the document is read again by a reader that goes as deep as the limit. -/
structure Fits (limit : Nat) (document : Json) : Prop where
  integral : IsIntegral document
  shallow : depth document ≤ limit

theorem Fits.mono {limit wider : Nat} {document : Json} (fits : Fits limit document)
    (wide : limit ≤ wider) : Fits wider document :=
  ⟨fits.integral, Nat.le_trans fits.shallow wide⟩

theorem fits_array_iff {items : List Json} {limit : Nat} :
    Fits (limit + 1) (array items) ↔ ∀ item ∈ items, Fits limit item := by
  constructor
  · intro fits item member
    exact ⟨isIntegral_array_iff.mp fits.integral item member,
      depth_array_le_iff.mp fits.shallow item member⟩
  · intro each
    exact ⟨.array fun item member => (each item member).integral,
      depth_array_le_iff.mpr fun item member => (each item member).shallow⟩

theorem fits_object_iff {fields : List (String × Json)} {limit : Nat} :
    Fits (limit + 1) (object fields) ↔ ∀ field ∈ fields, Fits limit field.2 := by
  constructor
  · intro fits field member
    exact ⟨isIntegral_object_iff.mp fits.integral field member,
      depth_object_le_iff.mp fits.shallow field member⟩
  · intro each
    exact ⟨.object fun field member => (each field member).integral,
      depth_object_le_iff.mpr fun field member => (each field member).shallow⟩

@[simp] theorem fits_null (limit : Nat) : Fits limit null :=
  ⟨.null, Nat.zero_le _⟩

@[simp] theorem fits_bool (limit : Nat) (value : Bool) : Fits limit (bool value) :=
  ⟨.bool value, Nat.zero_le _⟩

@[simp] theorem fits_string (limit : Nat) (text : String) : Fits limit (string text) :=
  ⟨.string text, Nat.zero_le _⟩

@[simp] theorem fits_nat_iff {limit value : Nat} :
    Fits limit (int value) ↔ value < Nat.pow 2 64 := by
  have storable : IsStorable value ↔ value < Nat.pow 2 64 := by
    simp only [IsStorable, leastInt, greatestInt, Nat.pow_eq]
    omega
  rw [← storable]
  exact ⟨fun ⟨.int fits, _⟩ => fits, fun fits => ⟨.int fits, Nat.zero_le _⟩⟩

@[simp] theorem fits_ofUInt32 (limit : Nat) (value : UInt32) : Fits limit (ofUInt32 value) :=
  fits_nat_iff.mpr (Nat.lt_trans value.toNat_lt (by decide))

@[simp] theorem fits_ofUInt64 (limit : Nat) (value : UInt64) : Fits limit (ofUInt64 value) :=
  fits_nat_iff.mpr value.toNat_lt

end SealedCatalog.Json
