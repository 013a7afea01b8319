import Mathlib.Data.List.TakeDrop
import Mathlib.Data.List.TakeWhile
import Mathlib.Logic.Function.Iterate
import SealedCatalog.Query.Command

/-!
The grammar of commands. A quoted name is a row of tokens, each a plain character or an escaped
one; the grammar says what texts name an entry and what may follow the name. Main statement: a
command compiles to a query exactly when the grammar derives that query from it.
-/

namespace SealedCatalog.Query

/-! ## Quoted names -/

/-- One token of a quoted name. -/
inductive NameToken where
  | plain (char : Char) (isPlain : char ≠ '\\' ∧ char ≠ '"')
  | quote
  | backslash

namespace NameToken

/-- The token as it stands between quotes. -/
def written : NameToken → List Char
  | plain char _ => [char]
  | quote => ['\\', '"']
  | backslash => ['\\', '\\']

/-- The character of the name that the token stands for. -/
def denoted : NameToken → Char
  | plain char _ => char
  | quote => '"'
  | backslash => '\\'

/-- The token after its escaped quotes are replaced, but not yet its escaped backslashes. -/
private def halfRead : NameToken → List Char
  | plain char _ => [char]
  | quote => ['"']
  | backslash => ['\\', '\\']

private theorem head?_written_ne_quote (tokens : List NameToken) :
    (tokens.flatMap written).head? ≠ some '"' := by
  cases tokens with
  | nil => simp
  | cons token rest =>
      cases token with
      | plain char isPlain => simpa [written] using isPlain.2
      | quote => simp [written]
      | backslash => simp [written]

/-- Replacing `\"` reads the escaped quotes and nothing else. The second backslash of an escaped
backslash begins no occurrence, since no token is written with a quote in front. -/
private theorem replaceAll_quote (tokens : List NameToken) :
    Text.replaceAll ['\\', '"'] ['"'] (tokens.flatMap written) = tokens.flatMap halfRead := by
  induction tokens with
  | nil => simp
  | cons token rest induction =>
      cases token with
      | plain char isPlain =>
          have absent : ¬ ['\\', '"'] <+: char :: rest.flatMap written := by
            simp [List.cons_prefix_cons, Ne.symm isPlain.1]
          simp only [List.flatMap_cons, written, halfRead, List.singleton_append]
          rw [Text.replaceAll_cons absent, induction]
      | quote =>
          have replaced := Text.replaceAll_append '\\' ['"'] ['"'] (rest.flatMap written)
          simp only [List.flatMap_cons, written, halfRead]
          exact replaced.trans (by rw [induction])
      | backslash =>
          have first : ¬ ['\\', '"'] <+: '\\' :: '\\' :: rest.flatMap written := by
            simp [List.cons_prefix_cons]
          have second : ¬ ['\\', '"'] <+: '\\' :: rest.flatMap written := by
            intro occurs
            rcases (List.cons_prefix_cons.mp occurs).2 with ⟨after, same⟩
            exact head?_written_ne_quote rest (by simp [← same])
          simp only [List.flatMap_cons, written, halfRead, List.cons_append, List.nil_append]
          rw [Text.replaceAll_cons first, Text.replaceAll_cons second, induction]

/-- Replacing `\\` then reads the escaped backslashes: no other token holds a backslash any more. -/
private theorem replaceAll_backslash (tokens : List NameToken) :
    Text.replaceAll ['\\', '\\'] ['\\'] (tokens.flatMap halfRead) = tokens.map denoted := by
  induction tokens with
  | nil => simp
  | cons token rest induction =>
      cases token with
      | plain char isPlain =>
          have absent : ¬ ['\\', '\\'] <+: char :: rest.flatMap halfRead := by
            simp [List.cons_prefix_cons, Ne.symm isPlain.1]
          simp only [List.flatMap_cons, halfRead, List.singleton_append, List.map_cons, denoted]
          rw [Text.replaceAll_cons absent, induction]
      | quote =>
          have absent : ¬ ['\\', '\\'] <+: '"' :: rest.flatMap halfRead := by
            simp [List.cons_prefix_cons]
          simp only [List.flatMap_cons, halfRead, List.singleton_append, List.map_cons, denoted]
          rw [Text.replaceAll_cons absent, induction]
      | backslash =>
          have replaced := Text.replaceAll_append '\\' ['\\'] ['\\'] (rest.flatMap halfRead)
          simp only [List.flatMap_cons, halfRead, List.map_cons, denoted]
          exact replaced.trans (by rw [induction, List.singleton_append])

/-- Unescaping a row of tokens gives the characters they stand for, token by token. -/
theorem unescape_written (tokens : List NameToken) :
    Quoting.unescape (tokens.flatMap written) = tokens.map denoted := by
  rw [Quoting.unescape, replaceAll_quote, replaceAll_backslash]

/-- The scanner takes one token off whatever stands after it. -/
theorem scanWritten?_written (token : NameToken) (rest : List Char) :
    Quoting.scanWritten? (token.written ++ rest) = some (token.written, rest) := by
  cases token with
  | plain char isPlain =>
      simp only [written, List.singleton_append]
      unfold Quoting.scanWritten?
      split <;> simp_all
  | quote => rfl
  | backslash => rfl

/-- Whatever the scanner takes off a text is a token. -/
theorem of_scanWritten {text taken rest : List Char}
    (scanned : Quoting.scanWritten? text = some (taken, rest)) :
    ∃ token : NameToken, taken = token.written ∧ text = token.written ++ rest := by
  unfold Quoting.scanWritten? at scanned
  split at scanned
  next after =>
    simp only [Option.some.injEq, Prod.mk.injEq] at scanned
    exact ⟨quote, by simp [written, ← scanned.1, ← scanned.2]⟩
  next after =>
    simp only [Option.some.injEq, Prod.mk.injEq] at scanned
    exact ⟨backslash, by simp [written, ← scanned.1, ← scanned.2]⟩
  next char after _ _ =>
    split at scanned
    · simp at scanned
    next isPlain =>
      simp only [Bool.or_eq_true, decide_eq_true_eq, not_or] at isPlain
      simp only [Option.some.injEq, Prod.mk.injEq] at scanned
      exact ⟨plain char isPlain, by simp [written, ← scanned.1, ← scanned.2]⟩
  · simp at scanned

end NameToken

namespace Quoting

theorem scanInside?_of_quote (token : NameToken) (remainder : List Char) :
    scanInside? (token.written ++ '"' :: remainder) = some (token.written, remainder) := by
  have scanned := token.scanWritten?_written ('"' :: remainder)
  rw [scanInside?]
  split <;> simp_all

theorem scanInside?_of_ne_quote (token : NameToken) {rest : List Char}
    (unclosed : rest.head? ≠ some '"') :
    scanInside? (token.written ++ rest) = (scanInside? rest).map
      fun (more, remainder) => (token.written ++ more, remainder) := by
  have scanned := token.scanWritten?_written rest
  rw [scanInside?]
  split
  · simp_all
  next written remainder first =>
    rw [scanned, Option.some.injEq, Prod.mk.injEq] at first
    exact absurd (by rw [first.2]; rfl) unclosed
  next written after _ first =>
    obtain ⟨rfl, rfl⟩ : token.written = written ∧ rest = after := by
      simpa [scanned] using first
    rfl

/-- The scanner stops at the quote after the tokens, which is the first that none of them holds. -/
theorem scanInside?_written {tokens : List NameToken} (nonempty : tokens ≠ [])
    (remainder : List Char) :
    scanInside? (tokens.flatMap NameToken.written ++ '"' :: remainder) =
      some (tokens.flatMap NameToken.written, remainder) := by
  induction tokens with
  | nil => contradiction
  | cons token rest induction =>
      rw [List.flatMap_cons, List.append_assoc]
      cases rest with
      | nil => simpa using scanInside?_of_quote token remainder
      | cons next rest =>
          have unclosed : ((next :: rest).flatMap NameToken.written ++ '"' :: remainder).head? ≠
              some '"' := by
            cases next with
            | plain char isPlain => simpa [NameToken.written] using isPlain.2
            | quote => simp [NameToken.written]
            | backslash => simp [NameToken.written]
          rw [scanInside?_of_ne_quote token unclosed, induction (List.cons_ne_nil _ _)]
          rfl

/-- What is scanned between quotes is a row of tokens, not an empty one. -/
theorem of_scanInside {text taken remainder : List Char}
    (scanned : scanInside? text = some (taken, remainder)) :
    ∃ tokens : List NameToken, tokens ≠ [] ∧ taken = tokens.flatMap NameToken.written ∧
      text = tokens.flatMap NameToken.written ++ '"' :: remainder := by
  fun_induction scanInside? text generalizing taken with
  | case1 => simp at scanned
  | case2 text written after first =>
      rcases NameToken.of_scanWritten first with ⟨token, rfl, rfl⟩
      simp only [Option.some.injEq, Prod.mk.injEq] at scanned
      exact ⟨[token], by simp, by simp [← scanned.1], by simp [← scanned.2]⟩
  | case3 text written rest notQuote first shorter induction =>
      rcases NameToken.of_scanWritten first with ⟨token, rfl, rfl⟩
      simp only [Option.map_eq_some_iff, Prod.mk.injEq, Prod.exists] at scanned
      rcases scanned with ⟨more, after, inside, rfl, rfl⟩
      rcases induction inside with ⟨tokens, _, rfl, rfl⟩
      exact ⟨token :: tokens, by simp, by simp, by simp⟩

end Quoting

/-! ## Names and operations -/

/-- A text that begins with the name of an entry, the name, and what follows it. -/
inductive Names : List Char → List Char → List Char → Prop where
  /-- A bare name is the longest beginning without an operator. It may be empty, the text not. -/
  | bare {text name remainder : List Char} (nonempty : text ≠ [])
      (unquoted : text.head? ≠ some '"') (split : text = name ++ remainder)
      (free : ∀ char ∈ name, isOperator char = false)
      (longest : ∀ char ∈ remainder.head?, isOperator char = true) :
      Names text name remainder
  /-- A quoted name ends at the first quote that is not escaped. -/
  | quoted {tokens : List NameToken} (nonempty : tokens ≠ []) (remainder : List Char) :
      Names ('"' :: (tokens.flatMap NameToken.written ++ '"' :: remainder))
        (tokens.map NameToken.denoted) remainder

/-- What may follow the name of an entry, and the query it asks for. -/
inductive Operates (entry : Entry) : List Char → Query → Prop where
  | nothing : Operates entry [] (has entry)
  | includes {operand : List Char} (nonempty : operand ≠ []) :
      Operates entry (':' :: operand) (includes entry (String.ofList operand))
  | exactly {operand : List Char} (nonempty : operand ≠ []) :
      Operates entry ('=' :: operand) (exactly entry (String.ofList operand))
  | compares (relation : Relation) {operand : List Char} {target : String}
      (nonempty : operand ≠ []) (sorts : entry.sortingMethod.isActive = true)
      (encoded : SortKey.encodeText entry.sortingMethod (String.ofList operand) = some target) :
      Operates entry (relation.symbol :: operand)
        (compare entry relation target (String.ofList operand))

/-- A command without an exclamation mark before it, and its query. -/
inductive Asks (configuration : Configuration) : List Char → Query → Prop where
  | mentions {text : List Char} (nonempty : text ≠ []) (unnegated : text.head? ≠ some '!')
      (unscoped : text.head? ≠ some '$') :
      Asks configuration text (mentions (String.ofList text))
  | entry {text name remainder : List Char} {entry : Entry} {query : Query}
      (named : Names text name remainder)
      (configured : configuration.find? (String.ofList name) = some entry)
      (operates : Operates entry remainder query) :
      Asks configuration ('$' :: text) query

/-- A name is split off a text exactly when the text begins with that name. -/
theorem splitName?_eq_some_iff {text name remainder : List Char} (nonempty : text ≠ []) :
    splitName? text = some (name, remainder) ↔ Names text name remainder := by
  constructor
  · intro split
    rw [splitName?] at split
    split at split
    next quoted =>
      obtain ⟨rest, rfl⟩ : ∃ rest, text = '"' :: rest := by
        cases text with
        | nil => contradiction
        | cons head rest => exact ⟨rest, by simpa using quoted⟩
      simp only [Quoting.extract?, Option.map_eq_some_iff, Prod.mk.injEq, Prod.exists] at split
      rcases split with ⟨written, after, inside, rfl, rfl⟩
      rcases Quoting.of_scanInside inside with ⟨tokens, someTokens, rfl, rfl⟩
      rw [NameToken.unescape_written]
      exact .quoted someTokens after
    next unquoted =>
      rw [List.span_eq_takeWhile_dropWhile, Option.some.injEq, Prod.mk.injEq] at split
      rcases split with ⟨rfl, rfl⟩
      refine .bare nonempty unquoted List.takeWhile_append_dropWhile.symm ?_ ?_
      · intro char member
        simpa using List.mem_takeWhile_imp member
      · intro char first
        have stopped := List.head?_dropWhile_not (fun char => !isOperator char) text
        simpa [Option.mem_def.mp first] using stopped
  · rintro (⟨_, unquoted, rfl, free, longest⟩ | ⟨someTokens, remainder⟩)
    · have taken : ∀ char ∈ name, (!isOperator char) = true := by simpa using free
      have stopped : remainder.takeWhile (fun char => !isOperator char) = [] ∧
          remainder.dropWhile (fun char => !isOperator char) = remainder := by
        cases remainder with
        | nil => simp
        | cons head rest => simpa using longest head rfl
      rw [splitName?, if_neg unquoted, List.span_eq_takeWhile_dropWhile,
        List.takeWhile_append_of_pos taken, List.dropWhile_append_of_pos taken, stopped.1,
        stopped.2, List.append_nil]
    · simp [splitName?, Quoting.extract?, Quoting.scanInside?_written someTokens,
        NameToken.unescape_written]

theorem ofSymbol?_eq_some_iff {char : Char} {relation : Relation} :
    Relation.ofSymbol? char = some relation ↔ char = relation.symbol := by
  constructor
  · intro found
    unfold Relation.ofSymbol? at found
    split at found <;> simp_all [Relation.symbol] <;> simp [← found]
  · rintro rfl
    cases relation <;> rfl

theorem comparison?_eq_some_iff {entry : Entry} {relation : Relation} {operand : String}
    {query : Query} :
    comparison? entry relation operand = some query ↔
      entry.sortingMethod.isActive = true ∧
        ∃ target, SortKey.encodeText entry.sortingMethod operand = some target ∧
          query = compare entry relation target operand := by
  rw [comparison?]
  split
  next sorts =>
    simp only [Option.map_eq_some_iff, sorts, true_and]
    exact exists_congr fun target => and_congr_right fun _ => eq_comm
  next unsorted => simp [unsorted]

/-- An operation compiles exactly as its operator, its operand and the entry allow. -/
theorem operation?_eq_some_iff {entry : Entry} {operator : Char} {operand : List Char}
    {query : Query} :
    operation? entry operator operand = some query ↔
      Operates entry (operator :: operand) query := by
  constructor
  · intro compiled
    rw [operation?] at compiled
    split at compiled
    · simp at compiled
    next present =>
      have nonempty : operand ≠ [] := by simpa using present
      split at compiled
      next isColon =>
        subst isColon
        exact (Option.some.inj compiled) ▸ .includes nonempty
      split at compiled
      next isEquals =>
        subst isEquals
        exact (Option.some.inj compiled) ▸ .exactly nonempty
      next =>
        rcases Option.bind_eq_some_iff.mp compiled with ⟨relation, symbol, compared⟩
        rcases comparison?_eq_some_iff.mp compared with ⟨sorts, target, encoded, rfl⟩
        rw [ofSymbol?_eq_some_iff.mp symbol]
        exact .compares relation nonempty sorts encoded
  · intro operates
    cases operates with
    | includes nonempty => simp [operation?, nonempty]
    | exactly nonempty => simp [operation?, nonempty]
    | compares relation nonempty sorts encoded =>
        have notColon : relation.symbol ≠ ':' := by cases relation <;> decide
        have notEquals : relation.symbol ≠ '=' := by cases relation <;> decide
        have found : Relation.ofSymbol? relation.symbol = some relation :=
          ofSymbol?_eq_some_iff.mpr rfl
        simp [operation?, nonempty, notColon, notEquals, found, comparison?, sorts, encoded]

/-- A text after the dollar sign compiles exactly as its name and its operation say. -/
theorem ofEntryText?_eq_some_iff {configuration : Configuration} {text : List Char}
    {query : Query} :
    ofEntryText? configuration text = some query ↔
      ∃ name remainder entry, Names text name remainder ∧
        configuration.find? (String.ofList name) = some entry ∧
        Operates entry remainder query := by
  by_cases empty : text = []
  · subst empty
    constructor
    · simp [ofEntryText?]
    · rintro ⟨name, remainder, entry, named, _⟩
      cases named with
      | bare nonempty => contradiction
  · simp only [ofEntryText?, List.isEmpty_iff, empty, if_false, Option.bind_eq_bind,
      Option.bind_eq_some_iff, Prod.exists, splitName?_eq_some_iff empty]
    constructor
    · rintro ⟨name, remainder, named, entry, configured, compiled⟩
      refine ⟨name, remainder, entry, named, configured, ?_⟩
      cases remainder with
      | nil => exact (Option.some.inj compiled) ▸ .nothing
      | cons operator operand => exact operation?_eq_some_iff.mp compiled
    · rintro ⟨name, remainder, entry, named, configured, operates⟩
      refine ⟨name, remainder, named, entry, configured, ?_⟩
      cases remainder with
      | nil =>
          cases operates
          rfl
      | cons operator operand => exact operation?_eq_some_iff.mpr operates

/-- A command without an exclamation mark before it compiles exactly to what it asks for. -/
theorem ofChars?_eq_some_iff_asks {configuration : Configuration} {text : List Char}
    {query : Query} (unnegated : text.head? ≠ some '!') :
    ofChars? configuration text = some query ↔ Asks configuration text query := by
  unfold ofChars?
  split
  · constructor
    · simp
    · intro asks
      cases asks with
      | mentions nonempty => contradiction
  · simp at unnegated
  next rest =>
    rw [ofEntryText?_eq_some_iff]
    constructor
    · rintro ⟨name, remainder, entry, named, configured, operates⟩
      exact .entry named configured operates
    · intro asks
      cases asks with
      | mentions _ _ unscoped => simp at unscoped
      | entry named configured operates => exact ⟨_, _, _, named, configured, operates⟩
  next nonempty _ unscoped =>
    have unscoped : text.head? ≠ some '$' := by
      cases text with
      | nil => simp
      | cons head rest =>
          intro same
          exact unscoped rest (by simpa using same)
    constructor
    · intro same
      exact (Option.some.inj same) ▸ .mentions nonempty unnegated unscoped
    · intro asks
      cases asks with
      | mentions => rfl
      | entry => simp at unscoped

theorem Asks.head?_ne {configuration : Configuration} {text : List Char} {query : Query}
    (asks : Asks configuration text query) : text.head? ≠ some '!' := by
  cases asks with
  | mentions _ unnegated => exact unnegated
  | entry => simp

/-- A command compiles to a query exactly when it is some exclamation marks and then a command
without one that asks for a query, whose repeated negation it is. -/
theorem ofCommand?_eq_some_iff (configuration : Configuration) (command : String)
    (query : Query) :
    ofCommand? configuration command = some query ↔
      ∃ (marks : Nat) (text : List Char) (asked : Query),
        command.toList = List.replicate marks '!' ++ text ∧ query = not^[marks] asked ∧
          Asks configuration text asked := by
  rw [ofCommand?]
  generalize command.toList = chars
  constructor
  · intro compiled
    induction chars generalizing query with
    | nil => simp [ofChars?] at compiled
    | cons head rest induction =>
        by_cases negated : head = '!'
        · subst negated
          simp only [ofChars?, Option.map_eq_some_iff] at compiled
          rcases compiled with ⟨inner, compiled, rfl⟩
          rcases induction inner compiled with ⟨marks, text, asked, rfl, rfl, asks⟩
          exact ⟨marks + 1, text, asked, by simp [List.replicate_succ],
            by rw [Function.iterate_succ_apply'], asks⟩
        · have unnegated : (head :: rest).head? ≠ some '!' := by simpa using negated
          exact ⟨0, head :: rest, query, by simp, rfl,
            (ofChars?_eq_some_iff_asks unnegated).mp compiled⟩
  · rintro ⟨marks, text, asked, rfl, rfl, asks⟩
    induction marks with
    | zero => simpa using (ofChars?_eq_some_iff_asks asks.head?_ne).mpr asks
    | succ marks induction =>
        rw [List.replicate_succ, List.cons_append, ofChars?, induction,
          Function.iterate_succ_apply']
        rfl

end SealedCatalog.Query
