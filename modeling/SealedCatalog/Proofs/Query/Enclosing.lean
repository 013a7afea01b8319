import Mathlib.Data.List.Basic
import SealedCatalog.Proofs.Query.Grammar

/-! Names in commands. A name that is quoted where it needs quotes is read back as it was, and what
follows it is read as the operation. Main statement: every operation on an entry has a command. -/

namespace SealedCatalog.Query

/-! ## Escaping as a row of tokens -/

private theorem replaceAll_singleton (part : Char) (replacement text : List Char) :
    Text.replaceAll [part] replacement text =
      text.flatMap fun char => if char = part then replacement else [char] := by
  induction text with
  | nil => simp
  | cons char rest induction =>
      by_cases same : char = part
      · subst same
        have replaced := Text.replaceAll_append char [] replacement rest
        rw [List.nil_append] at replaced
        rw [replaced, List.flatMap_cons, if_pos rfl, induction]
      · have absent : ¬ [part] <+: char :: rest := by
          simp [List.cons_prefix_cons, Ne.symm same]
        rw [Text.replaceAll_cons absent, List.flatMap_cons, if_neg same, induction]
        rfl

namespace NameToken

/-- The token that stands for a character of a name. -/
def ofChar (char : Char) : NameToken :=
  if isQuote : char = '"' then quote
  else if isBackslash : char = '\\' then backslash
  else plain char ⟨isBackslash, isQuote⟩

@[simp] theorem denoted_ofChar (char : Char) : (ofChar char).denoted = char := by
  unfold ofChar
  split
  next same => exact same.symm
  split
  next same => exact same.symm
  · rfl

theorem map_denoted_ofChar (name : List Char) : (name.map ofChar).map denoted = name := by
  induction name with
  | nil => rfl
  | cons char rest induction => simpa using induction

/-- Escaping writes every character as its token. The backslashes are doubled first, so that those
before quotes stay single. -/
theorem escape_eq_written (name : List Char) :
    Quoting.escape name = (name.map ofChar).flatMap written := by
  rw [Quoting.escape, replaceAll_singleton, replaceAll_singleton, List.flatMap_assoc,
    List.flatMap_map]
  refine List.flatMap_congr fun char _ => ?_
  unfold ofChar
  split
  next same => simp [same, written]
  split
  next same => simp [same, written]
  next notBackslash => simp [notBackslash, written]

end NameToken

/-! ## Reading a name back -/

/-- A text begins with one name at most. -/
theorem Names.unique {text name other remainder rest : List Char}
    (first : Names text name remainder) (second : Names text other rest) :
    name = other ∧ remainder = rest := by
  have nonempty : text ≠ [] := by
    cases first with
    | bare nonempty => exact nonempty
    | quoted => exact List.cons_ne_nil _ _
  have split := (splitName?_eq_some_iff nonempty).mpr first
  rw [(splitName?_eq_some_iff nonempty).mpr second] at split
  simpa [eq_comm] using split

/-- A name, quoted where it needs quotes, is followed by what begins with an operator, if by
anything. -/
theorem names_enclose {name : String} {remainder : List Char}
    (nonempty : name ≠ "" ∨ remainder ≠ [])
    (operates : ∀ char ∈ remainder.head?, isOperator char = true) :
    Names ((Quoting.enclose name).toList ++ remainder) name.toList remainder := by
  unfold Quoting.enclose
  split
  next needsQuotes =>
    have someTokens : name.toList.map NameToken.ofChar ≠ [] := by
      intro none
      rw [List.map_eq_nil_iff] at none
      simp [Quoting.needsQuotes, none] at needsQuotes
    have named := Names.quoted someTokens remainder
    rw [NameToken.map_denoted_ofChar, ← NameToken.escape_eq_written] at named
    simpa [Quoting.quoted] using named
  next plain =>
    simp only [Quoting.needsQuotes, Bool.or_eq_true, beq_iff_eq, List.any_eq_true, not_or,
      not_exists, not_and, Bool.not_eq_true] at plain
    have someText : name.toList ++ remainder ≠ [] := by
      simpa [Decidable.imp_iff_not_or] using nonempty
    refine .bare someText ?_ rfl plain.2 operates
    cases written : name.toList with
    | nil =>
        -- What follows an empty name is an operator, and no operator is a quote.
        intro same
        rw [List.nil_append] at same
        exact absurd (operates '"' same) (by decide)
    | cons head rest => simpa [written] using plain.1

theorem toList_command (name : String) (remainder : String) :
    ("$" ++ Quoting.enclose name ++ remainder).toList =
      '$' :: ((Quoting.enclose name).toList ++ remainder.toList) := by
  simp

/-- After the enclosed name of an entry a command asks for what its remainder says. -/
theorem ofCommand?_enclose_iff_operates {configuration : Configuration} {name : String}
    {entry : Entry} (configured : configuration.find? name = some entry) {remainder : String}
    (nonempty : name ≠ "" ∨ remainder.toList ≠ [])
    (operates : ∀ char ∈ remainder.toList.head?, isOperator char = true) {query : Query} :
    ofCommand? configuration ("$" ++ Quoting.enclose name ++ remainder) = some query ↔
      Operates entry remainder.toList query := by
  have named := names_enclose nonempty operates
  rw [ofCommand?, toList_command, ofChars?, ofEntryText?_eq_some_iff]
  constructor
  · rintro ⟨other, rest, found, otherNamed, otherConfigured, operation⟩
    rcases named.unique otherNamed with ⟨rfl, rfl⟩
    rw [String.ofList_toList, configured] at otherConfigured
    exact Option.some.inj otherConfigured ▸ operation
  · intro operation
    exact ⟨name.toList, remainder.toList, entry, named, by rw [String.ofList_toList, configured],
      operation⟩

/-! ## Comparisons -/

/-- The command that compares the entry of the given name with an operand. -/
def comparing (name : String) (relation : Relation) (operand : String) : String :=
  "$" ++ Quoting.enclose name ++ (relation.symbol.toString ++ operand)

theorem isOperator_symbol (relation : Relation) : isOperator relation.symbol = true := by
  cases relation <;> rfl

theorem operates_symbol_iff {entry : Entry} {relation : Relation} {operand : List Char}
    {query : Query} :
    Operates entry (relation.symbol :: operand) query ↔
      operand ≠ [] ∧ entry.sortingMethod.isActive = true ∧
        ∃ target, SortKey.encodeText entry.sortingMethod (String.ofList operand) = some target ∧
          query = compare entry relation target (String.ofList operand) := by
  have notColon : relation.symbol ≠ ':' := by cases relation <;> decide
  have notEquals : relation.symbol ≠ '=' := by cases relation <;> decide
  rw [← operation?_eq_some_iff, operation?, if_neg notColon, if_neg notEquals,
    ofSymbol?_eq_some_iff.mpr rfl, Option.bind_some]
  by_cases empty : operand = []
  · simp [empty]
  · simp [empty, comparison?_eq_some_iff]

/-- A comparison compiles exactly if it has an operand, the entry sorts and the operand has a key,
which is the target. -/
theorem ofCommand?_comparing_eq_some_iff {configuration : Configuration} {name : String}
    {entry : Entry} (configured : configuration.find? name = some entry) {relation : Relation}
    {operand : String} {query : Query} :
    ofCommand? configuration (comparing name relation operand) = some query ↔
      operand ≠ "" ∧ entry.sortingMethod.isActive = true ∧
        ∃ target, SortKey.encodeText entry.sortingMethod operand = some target ∧
          query = compare entry relation target operand := by
  have written : (relation.symbol.toString ++ operand).toList =
      relation.symbol :: operand.toList := by simp
  rw [comparing, ofCommand?_enclose_iff_operates configured (.inr (by simp))
    (by simpa [written] using isOperator_symbol relation), written, operates_symbol_iff,
    String.ofList_toList, ne_eq, String.toList_eq_nil_iff]

/-- What stands in quotes where it needs them is read as the name, and the operand as it is: the
name alone asks for a value, and with an operator and an operand it asks for what the operator says
of that operand, a comparison exactly if the entry sorts and the operand has a key. -/
theorem ofCommand?_enclose {configuration : Configuration} {name : String} {entry : Entry}
    (nonempty : name ≠ "") (configured : configuration.find? name = some entry) :
    ofCommand? configuration ("$" ++ Quoting.enclose name) = some (has entry) ∧
      ∀ operand ≠ "",
        ofCommand? configuration ("$" ++ Quoting.enclose name ++ (":" ++ operand)) =
          some (includes entry operand) ∧
        ofCommand? configuration ("$" ++ Quoting.enclose name ++ ("=" ++ operand)) =
          some (exactly entry operand) ∧
        ∀ relation query,
          ofCommand? configuration (comparing name relation operand) = some query ↔
            entry.sortingMethod.isActive = true ∧
              ∃ target, SortKey.encodeText entry.sortingMethod operand = some target ∧
                query = compare entry relation target operand := by
  refine ⟨?_, fun operand present => ⟨?_, ?_, fun relation query => ?_⟩⟩
  · have asked : ofCommand? configuration ("$" ++ Quoting.enclose name ++ "") = some (has entry) :=
      (ofCommand?_enclose_iff_operates configured (.inl nonempty) (by simp)).mpr .nothing
    rwa [String.append_empty] at asked
  · have operation : Operates entry (':' :: operand.toList)
        (includes entry (String.ofList operand.toList)) :=
      .includes (mt String.toList_eq_nil_iff.mp present)
    rw [String.ofList_toList] at operation
    exact (ofCommand?_enclose_iff_operates configured (.inl nonempty) (by simp [isOperator])).mpr
      (by simpa using operation)
  · have operation : Operates entry ('=' :: operand.toList)
        (exactly entry (String.ofList operand.toList)) :=
      .exactly (mt String.toList_eq_nil_iff.mp present)
    rw [String.ofList_toList] at operation
    exact (ofCommand?_enclose_iff_operates configured (.inl nonempty) (by simp [isOperator])).mpr
      (by simpa using operation)
  · rw [ofCommand?_comparing_eq_some_iff configured, and_iff_right present]

/-- A name of a quote, a backslash and an operator, before an operand of operators. -/
theorem ofCommand?_enclose_operators :
    let entry : Entry := .string "\"\\:" .asNumber
    ("\"\\:" ≠ "" ∧ (Configuration.ofEntries [entry]).find? "\"\\:" = some entry ∧ "=1" ≠ "") ∧
      "$" ++ Quoting.enclose "\"\\:" ++ (":" ++ "=1") = "$\"\\\"\\\\:\":=1" ∧
      ofCommand? (Configuration.ofEntries [entry])
        ("$" ++ Quoting.enclose "\"\\:" ++ (":" ++ "=1")) = some (includes entry "=1") := by
  have configured : (Configuration.ofEntries [Entry.string "\"\\:" .asNumber]).find? "\"\\:" =
      some (.string "\"\\:" .asNumber) := by decide
  refine ⟨⟨by decide, configured, by decide⟩, ?_, ?_⟩
  · simp [Quoting.enclose, Quoting.needsQuotes, Quoting.quoted, isOperator,
      NameToken.escape_eq_written, NameToken.ofChar, NameToken.written]
  · exact ((ofCommand?_enclose (by decide) configured).2 "=1" (by decide)).1

end SealedCatalog.Query
