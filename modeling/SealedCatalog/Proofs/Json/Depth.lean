import SealedCatalog.Json.Reader
import SealedCatalog.Proofs.Json.Canonical

/-! What the reader gives: every document that is read has numbers that can be written again and is
no deeper than the reader goes. -/

namespace SealedCatalog.Json

/-- The numbers can be written and the document is not too deep. -/
structure IsReadable (limit : Nat) (document : Json) : Prop where
  writable : IsWritable document
  shallow : depth document ≤ limit

namespace IsReadable

variable {limit : Nat}

theorem array_iff {items : List Json} :
    IsReadable (limit + 1) (.array items) ↔ ∀ item ∈ items, IsReadable limit item := by
  constructor
  · intro readable item member
    exact ⟨isWritable_array_iff.mp readable.writable item member,
      depth_array_le_iff.mp readable.shallow item member⟩
  · intro each
    exact ⟨.array fun item member => (each item member).writable,
      depth_array_le_iff.mpr fun item member => (each item member).shallow⟩

theorem object_iff {fields : List (String × Json)} :
    IsReadable (limit + 1) (.object fields) ↔ ∀ field ∈ fields, IsReadable limit field.2 := by
  constructor
  · intro readable field member
    exact ⟨isWritable_object_iff.mp readable.writable field member,
      depth_object_le_iff.mp readable.shallow field member⟩
  · intro each
    exact ⟨.object fun field member => (each field member).writable,
      depth_object_le_iff.mpr fun field member => (each field member).shallow⟩

theorem mono {wider : Nat} {document : Json} (readable : IsReadable limit document)
    (wide : limit ≤ wider) : IsReadable wider document :=
  ⟨readable.writable, Nat.le_trans readable.shallow wide⟩

theorem canonical {document : Json} (readable : IsReadable limit document) :
    IsReadable limit document.canonical := by
  induction document generalizing limit with
  | array items induction =>
      cases limit with
      | zero => exact absurd readable.shallow (Nat.not_succ_le_zero _)
      | succ limit =>
          rw [canonical_array, array_iff]
          intro item member
          rcases List.mem_map.mp member with ⟨original, originalMember, rfl⟩
          exact induction original originalMember (array_iff.mp readable original originalMember)
  | object fields induction =>
      cases limit with
      | zero => exact absurd readable.shallow (Nat.not_succ_le_zero _)
      | succ limit =>
          rw [canonical_object, object_iff]
          exact forall_mem_canonical fun field member =>
            induction field member (object_iff.mp readable field member)
  | _ => exact readable

end IsReadable

theorem Fits.isReadable {limit : Nat} {document : Json} (fits : Fits limit document) :
    IsReadable limit document :=
  ⟨fits.integral.isWritable, fits.shallow⟩

/-! Documents that are read from their own texts -/

/-- The document that is read from the text of a document is as deep. -/
theorem IsReadable.reread {limit : Nat} {document : Json} (readable : IsReadable limit document) :
    IsReadable limit document.reread := by
  induction document generalizing limit with
  | float value =>
      cases readable.writable with
      | float finite => exact ⟨.float (isFinite_rereadNumber finite), readable.shallow⟩
  | array items induction =>
      cases limit with
      | zero => exact absurd readable.shallow (Nat.not_succ_le_zero _)
      | succ limit =>
          rw [reread_array, array_iff]
          intro item member
          rcases List.mem_map.mp member with ⟨original, originalMember, rfl⟩
          exact induction original originalMember (array_iff.mp readable original originalMember)
  | object fields induction =>
      cases limit with
      | zero => exact absurd readable.shallow (Nat.not_succ_le_zero _)
      | succ limit =>
          rw [reread_object, object_iff]
          intro field member
          rcases List.mem_map.mp member with ⟨original, originalMember, rfl⟩
          exact induction original originalMember (object_iff.mp readable original originalMember)
  | _ => exact readable

theorem IsCanonical.reread {document : Json} (isCanonical : IsCanonical document) :
    IsCanonical document.reread := by
  induction isCanonical with
  | null => exact .null
  | bool value => exact .bool value
  | int value => exact .int value
  | float value => exact .float _
  | string value => exact .string value
  | @array items _ induction =>
      rw [reread_array]
      refine .array fun item member => ?_
      rcases List.mem_map.mp member with ⟨original, originalMember, rfl⟩
      exact induction original originalMember
  | @object fields ascending _ induction =>
      rw [reread_object]
      refine .object (List.pairwise_map.mpr ascending) fun field member => ?_
      rcases List.mem_map.mp member with ⟨original, originalMember, rfl⟩
      exact induction original originalMember

/-! Numerals -/

namespace Numeral

theorem fst_gather_le {significand : Nat} (fits : significand ≤ greatestSignificand)
    (digits : List Char) : (gather significand digits).1 ≤ greatestSignificand := by
  induction digits generalizing significand with
  | nil => exact fits
  | cons digit rest induction =>
      rw [gather]
      split
      next extended => exact induction extended
      · exact fits

theorem isReadable_of_value? {numeral : Numeral} {value : Json}
    (found : numeral.value? = some value) : IsReadable 0 value := by
  have whole := fst_gather_le (Nat.zero_le greatestSignificand) numeral.whole
  have floats : ∀ {negative significand exponent},
      floatValue negative significand exponent = some value → IsReadable 0 value := by
    intro negative significand exponent read
    rcases exists_float_of_floatValue read with ⟨number, rfl, finite⟩
    exact ⟨.float finite, Nat.le_refl 0⟩
  simp only [value?] at found
  split at found
  · exact floats found
  · split at found
    · cases found
      refine ⟨.int ?_, Nat.le_refl 0⟩
      rw [greatestSignificand_eq] at whole
      rw [IsStorable, leastInt_eq, greatestInt_eq]
      omega
    · split at found
      · exact floats found
      next integer =>
        cases found
        refine ⟨.int ?_, Nat.le_refl 0⟩
        simp only [Bool.or_eq_true, decide_eq_true_eq, not_or, Int.not_lt] at integer
        rw [IsStorable, greatestInt_eq]
        omega

end Numeral

/-! Tokens -/

namespace Token

/-- The value of a number can be written. -/
def IsReadable (token : Token) : Prop :=
  ∀ value, token = number value → Json.IsReadable 0 value

theorem isReadable_of_scan {input rest : List Char} {token : Token}
    (scanned : scan input = some (token, rest)) : token.IsReadable := by
  rintro value rfl
  unfold scan at scanned
  split at scanned
  case h_10 => simp at scanned
  case h_11 =>
    rcases Option.bind_eq_some_iff.mp scanned with ⟨numeral, _, read⟩
    rcases Option.map_eq_some_iff.mp read with ⟨other, found, same⟩
    cases same
    exact Numeral.isReadable_of_value? found
  all_goals cases scanned

theorem isReadable_of_scanAll {gathered tokens : List Token} {input : List Char}
    (before : ∀ token ∈ gathered, token.IsReadable)
    (scanned : scanAll gathered input = some tokens) : ∀ token ∈ tokens, token.IsReadable := by
  fun_induction scanAll gathered input with
  | case1 gathered =>
      cases scanned
      exact fun token member => before token (List.mem_reverse.mp member)
  | case2 gathered char rest blank induction => exact induction before scanned
  | case3 => cases scanned
  | case4 gathered char rest solid token after found shorter induction =>
      refine induction ?_ scanned
      exact List.forall_mem_cons.mpr ⟨isReadable_of_scan found, before⟩

end Token

/-! The stack -/

namespace Reading

/-- The values that stand before the current one. -/
def values : Frame → List Json
  | .items before => before
  | .fields before _ => before.map Prod.snd

/-- No more arrays and objects are open than may be, and what is read of each can be written and is
not too deep for its place. -/
def StackReadable : List Frame → Prop
  | [] => True
  | frame :: stack =>
      stack.length < maxDepth ∧
        (∀ value ∈ values frame, IsReadable (maxDepth - (stack.length + 1)) value) ∧
        StackReadable stack

/-- What has been read can be written and is not too deep for its place. -/
def IsSound : Reading → Prop
  | value stack => StackReadable stack
  | firstItem stack => StackReadable (.items [] :: stack)
  | firstKey stack => StackReadable (.fields [] "" :: stack)
  | key before stack => StackReadable (.fields before "" :: stack)
  | colon before name stack => StackReadable (.fields before name :: stack)
  | moreItems before stack => StackReadable (.items before :: stack)
  | moreFields before stack => StackReadable (.fields before "" :: stack)
  | done document => IsReadable maxDepth document

theorem isSound_finish {complete : Json} {stack : List Frame} (sound : StackReadable stack)
    (readable : IsReadable (maxDepth - stack.length) complete) :
    (finish complete stack).IsSound := by
  cases stack with
  | nil => exact readable
  | cons frame stack =>
      have ⟨free, each, below⟩ := sound
      cases frame with
      | items before => exact ⟨free, List.forall_mem_cons.mpr ⟨readable, each⟩, below⟩
      | fields before name => exact ⟨free, List.forall_mem_cons.mpr ⟨readable, each⟩, below⟩

theorem isSound_start {stack : List Frame} (sound : StackReadable stack) {token : Token}
    (tokenReadable : token.IsReadable) {next : Reading} (started : start stack token = some next) :
    next.IsSound := by
  cases token with
  | null =>
      cases started
      exact isSound_finish sound ⟨.null, Nat.zero_le _⟩
  | bool truth =>
      cases started
      exact isSound_finish sound ⟨.bool truth, Nat.zero_le _⟩
  | number value =>
      cases started
      exact isSound_finish sound ((tokenReadable value rfl).mono (Nat.zero_le _))
  | string text =>
      cases started
      exact isSound_finish sound ⟨.string text, Nat.zero_le _⟩
  | beginArray =>
      simp only [start] at started
      split at started
      next free =>
        cases started
        exact ⟨free, List.forall_mem_nil _, sound⟩
      · cases started
  | beginObject =>
      simp only [start] at started
      split at started
      next free =>
        cases started
        exact ⟨free, List.forall_mem_nil _, sound⟩
      · cases started
  | _ => cases started

/-- An array or an object is one deeper than what is in it. -/
private theorem room {stack : List Frame} (free : stack.length < maxDepth) :
    maxDepth - stack.length = maxDepth - (stack.length + 1) + 1 := by
  omega

private theorem isSound_finish_array {before : List Json} {stack : List Frame}
    (sound : StackReadable (.items before :: stack)) :
    (finish (.array before.reverse) stack).IsSound := by
  have ⟨free, each, below⟩ := sound
  refine isSound_finish below ?_
  rw [room free, IsReadable.array_iff]
  exact fun item member => each item (List.mem_reverse.mp member)

private theorem isSound_finish_object {before : List (String × Json)} {name : String}
    {stack : List Frame} (sound : StackReadable (.fields before name :: stack)) :
    (finish (.object before.reverse) stack).IsSound := by
  have ⟨free, each, below⟩ := sound
  refine isSound_finish below ?_
  rw [room free, IsReadable.object_iff]
  exact fun field member =>
    each field.2 (List.mem_map_of_mem (List.mem_reverse.mp member))

theorem IsSound.step {reading next : Reading} (sound : reading.IsSound) {token : Token}
    (tokenReadable : token.IsReadable) (stepped : Reading.step reading token = some next) :
    next.IsSound := by
  unfold Reading.step at stepped
  split at stepped
  case h_1 => exact isSound_start sound tokenReadable stepped
  case h_2 =>
    cases stepped
    exact isSound_finish_array sound
  case h_3 => exact isSound_start sound tokenReadable stepped
  case h_4 =>
    cases stepped
    exact isSound_finish_object sound
  case h_9 =>
    cases stepped
    exact isSound_finish_array sound
  case h_11 =>
    cases stepped
    exact isSound_finish_object sound
  case h_12 => cases stepped
  all_goals
    cases stepped
    exact sound

theorem IsSound.foldlM {reading last : Reading} (sound : reading.IsSound) {tokens : List Token}
    (readable : ∀ token ∈ tokens, token.IsReadable)
    (ran : tokens.foldlM Reading.step reading = some last) : last.IsSound := by
  induction tokens generalizing reading with
  | nil =>
      cases ran
      exact sound
  | cons token rest induction =>
      have ⟨first, others⟩ := List.forall_mem_cons.mp readable
      rw [List.foldlM_cons] at ran
      rcases Option.bind_eq_some_iff.mp ran with ⟨next, stepped, later⟩
      exact induction (sound.step first stepped) others later

end Reading

/-! Documents -/

theorem isReadable_of_read? {text : String} {document : Json} (found : read? text = some document) :
    IsReadable maxDepth document := by
  rcases Option.bind_eq_some_iff.mp found with ⟨tokens, scanned, built⟩
  rcases Option.bind_eq_some_iff.mp built with ⟨last, ran, finished⟩
  have readable := Token.isReadable_of_scanAll (List.forall_mem_nil _) scanned
  have start : (Reading.value []).IsSound := trivial
  have sound := start.foldlM readable ran
  cases last with
  | done complete =>
      cases finished
      exact sound
  | _ => cases finished

theorem isReadable_of_parse? {text : String} {document : Json}
    (found : parse? text = some document) : IsReadable maxDepth document := by
  rcases Option.map_eq_some_iff.mp found with ⟨original, read, rfl⟩
  exact (isReadable_of_read? read).canonical

end SealedCatalog.Json
