import SealedCatalog.Json.Reader
import SealedCatalog.Proofs.Json.Scanning

/-! Reading undoes writing: the text of a document is read as that document when it is not too deep,
and refused otherwise. Only the numbers that are no integers may be read as others. -/

namespace SealedCatalog.Json

namespace Reading

/-- Go through tokens. -/
def run (reading : Reading) (tokens : List Token) : Option Reading :=
  tokens.foldlM step reading

theorem run_cons {reading next : Reading} {token : Token} (stepped : step reading token = some next)
    (tokens : List Token) : run reading (token :: tokens) = run next tokens := by
  simp [run, stepped]

theorem run_append (reading : Reading) (first second : List Token) :
    run reading (first ++ second) = (run reading first).bind fun next => run next second := by
  simp [run]

end Reading

open Reading

/-- From any stack that is not too high, the tokens of the document complete it exactly when it is
not too deep for that stack. -/
def Completes (document : Json) : Prop :=
  ∀ stack : List Frame, stack.length ≤ maxDepth →
    run (value stack) (tokens document) =
      if depth document + stack.length ≤ maxDepth then some (finish document.reread stack) else none

/-- The first token of an item is none that ends an array, so it is read like that of a value. -/
private theorem run_firstItem (item : Json) (stack : List Frame) (rest : List Token) :
    run (firstItem stack) (tokens item ++ rest) =
      run (value (.items [] :: stack)) (tokens item ++ rest) := by
  cases item <;> simp [tokens, run, step]

section Inside

variable {stack : List Frame} (free : stack.length < maxDepth)

include free

private theorem run_item {item : Json} (completes : Completes item) (before : List Json)
    (rest : List Token) :
    run (value (.items before :: stack)) (tokens item ++ rest) =
      if depth item + 1 + stack.length ≤ maxDepth then
        run (moreItems (item.reread :: before) stack) rest
      else none := by
  have completed := completes (.items before :: stack) free
  rw [List.length_cons, show depth item + (stack.length + 1) = depth item + 1 + stack.length by
    omega] at completed
  rw [run_append, completed]
  split <;> rfl

private theorem run_field {document : Json} (completes : Completes document)
    (before : List (String × Json)) (name : String) (rest : List Token) :
    run (value (.fields before name :: stack)) (tokens document ++ rest) =
      if depth document + 1 + stack.length ≤ maxDepth then
        run (moreFields ((name, document.reread) :: before) stack) rest
      else none := by
  have completed := completes (.fields before name :: stack) free
  rw [List.length_cons, show depth document + (stack.length + 1) =
    depth document + 1 + stack.length by omega] at completed
  rw [run_append, completed]
  split <;> rfl

private theorem run_moreItems {items : List Json} (each : ∀ item ∈ items, Completes item)
    (before : List Json) :
    run (moreItems before stack) (moreItemTokens items ++ [.endArray]) =
      if itemsDepth items + 1 + stack.length ≤ maxDepth then
        some (finish (array (before.reverse ++ rereadItems items)) stack)
      else none := by
  induction items generalizing before with
  | nil =>
      have shallow : 0 + 1 + stack.length ≤ maxDepth := by omega
      simp [moreItemTokens, itemsDepth, rereadItems, run, step, shallow]
  | cons item items induction =>
      rcases List.forall_mem_cons.mp each with ⟨first, others⟩
      have deepest : itemsDepth (item :: items) = max (depth item) (itemsDepth items) := rfl
      rw [moreItemTokens, List.cons_append, List.append_assoc, run_cons rfl,
        run_item free first, induction others]
      by_cases fits : depth item + 1 + stack.length ≤ maxDepth
      · by_cases othersFit : itemsDepth items + 1 + stack.length ≤ maxDepth
        · rw [if_pos fits, if_pos othersFit, if_pos (by omega)]
          simp [rereadItems]
        · rw [if_pos fits, if_neg othersFit, if_neg (by omega)]
      · rw [if_neg fits, if_neg (by omega)]

private theorem run_moreFields {fields : List (String × Json)}
    (each : ∀ field ∈ fields, Completes field.2) (before : List (String × Json)) :
    run (moreFields before stack) (moreFieldTokens fields ++ [.endObject]) =
      if fieldsDepth fields + 1 + stack.length ≤ maxDepth then
        some (finish (object (before.reverse ++ rereadFields fields)) stack)
      else none := by
  induction fields generalizing before with
  | nil =>
      have shallow : 0 + 1 + stack.length ≤ maxDepth := by omega
      simp [moreFieldTokens, fieldsDepth, rereadFields, run, step, shallow]
  | cons field fields induction =>
      rcases field with ⟨name, document⟩
      rcases List.forall_mem_cons.mp each with ⟨first, others⟩
      have deepest : fieldsDepth ((name, document) :: fields) =
        max (depth document) (fieldsDepth fields) := rfl
      simp only [moreFieldTokens, List.cons_append, List.append_assoc]
      rw [run_cons rfl, run_cons rfl, run_cons rfl, run_field free first, induction others]
      by_cases fits : depth document + 1 + stack.length ≤ maxDepth
      · by_cases othersFit : fieldsDepth fields + 1 + stack.length ≤ maxDepth
        · rw [if_pos fits, if_pos othersFit, if_pos (by omega)]
          simp [rereadFields]
        · rw [if_pos fits, if_neg othersFit, if_neg (by omega)]
      · rw [if_neg fits, if_neg (by omega)]

private theorem run_items {items : List Json} (each : ∀ item ∈ items, Completes item) :
    run (firstItem stack) (itemTokens items ++ [.endArray]) =
      if itemsDepth items + 1 + stack.length ≤ maxDepth then
        some (finish (array items).reread stack)
      else none := by
  cases items with
  | nil =>
      have shallow : 0 + 1 + stack.length ≤ maxDepth := by omega
      simp [itemTokens, itemsDepth, reread, rereadItems, run, step, shallow]
  | cons item items =>
      rcases List.forall_mem_cons.mp each with ⟨first, others⟩
      have comma := run_moreItems free each []
      rw [moreItemTokens, List.cons_append, run_cons rfl] at comma
      rw [itemTokens, List.append_assoc, run_firstItem, ← List.append_assoc, comma]
      rfl

private theorem run_fields {fields : List (String × Json)}
    (each : ∀ field ∈ fields, Completes field.2) :
    run (firstKey stack) (fieldTokens fields ++ [.endObject]) =
      if fieldsDepth fields + 1 + stack.length ≤ maxDepth then
        some (finish (object fields).reread stack)
      else none := by
  cases fields with
  | nil =>
      have shallow : 0 + 1 + stack.length ≤ maxDepth := by omega
      simp [fieldTokens, fieldsDepth, reread, rereadFields, run, step, shallow]
  | cons field fields =>
      rcases field with ⟨name, document⟩
      have comma := run_moreFields free each []
      simp only [moreFieldTokens, List.cons_append] at comma
      rw [run_cons rfl, run_cons rfl, run_cons rfl] at comma
      simp only [fieldTokens, List.cons_append]
      rw [run_cons rfl, run_cons rfl, comma]
      rfl

end Inside

theorem completes (document : Json) : Completes document := by
  intro stack low
  induction document generalizing stack with
  | array items induction =>
      have deepest : depth (array items) = itemsDepth items + 1 := rfl
      rw [tokens, deepest]
      by_cases free : stack.length < maxDepth
      · have opened : step (value stack) .beginArray = some (firstItem stack) := if_pos free
        rw [run_cons opened, run_items free induction]
      · have refused : step (value stack) .beginArray = none := if_neg free
        rw [if_neg (by omega)]
        simp [run, refused]
  | object fields induction =>
      have deepest : depth (object fields) = fieldsDepth fields + 1 := rfl
      rw [tokens, deepest]
      by_cases free : stack.length < maxDepth
      · have opened : step (value stack) .beginObject = some (firstKey stack) := if_pos free
        rw [run_cons opened, run_fields free induction]
      · have refused : step (value stack) .beginObject = none := if_neg free
        rw [if_neg (by omega)]
        simp [run, refused]
  | _ => simp [tokens, reread, run, step, start, depth, low]

/-- The text of a document is read as that document, unless it is deeper than the reader goes. -/
theorem read?_render_of_isWritable {document : Json} (writable : IsWritable document) :
    read? document.render =
      if depth document ≤ maxDepth then some document.reread else none := by
  have completed := completes document [] (Nat.zero_le _)
  rw [List.length_nil, Nat.add_zero] at completed
  rw [read?, render, String.toList_ofList, scanAll_write writable, Option.bind_some, ofTokens?]
  show (run (value []) (tokens document)).bind document? = _
  rw [completed]
  split <;> rfl

theorem parse?_render_of_isWritable {document : Json} (writable : IsWritable document) :
    parse? document.render =
      if depth document ≤ maxDepth then some document.reread.canonical else none := by
  rw [parse?, read?_render_of_isWritable writable]
  split <;> rfl

theorem read?_render {document : Json} (integral : IsIntegral document) :
    read? document.render = if depth document ≤ maxDepth then some document else none := by
  rw [read?_render_of_isWritable integral.isWritable, integral.reread_eq]

theorem parse?_render {document : Json} (integral : IsIntegral document) :
    parse? document.render =
      if depth document ≤ maxDepth then some document.canonical else none := by
  rw [parse?_render_of_isWritable integral.isWritable, integral.reread_eq]

end SealedCatalog.Json
