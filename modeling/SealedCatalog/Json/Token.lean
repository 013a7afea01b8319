import SealedCatalog.Json.Numeral

/-!
The tokens of JSON text. Blanks stand only between tokens; a string may hold any character but the
control characters, and its escapes must denote characters, so that a surrogate needs its partner.
-/

namespace SealedCatalog.Json

inductive Token where
  | beginArray
  | endArray
  | beginObject
  | endObject
  | colon
  | comma
  | null
  | bool (value : Bool)
  | number (value : Json)
  | string (value : String)
deriving BEq, Inhabited

namespace Token

def isBlank (char : Char) : Bool :=
  char = ' ' || char = '\n' || char = '\t' || char = '\r'

def hexValue? (char : Char) : Option Nat :=
  if '0' ≤ char && char ≤ '9' then some (char.toNat - 48)
  else if 'a' ≤ char && char ≤ 'f' then some (char.toNat - 87)
  else if 'A' ≤ char && char ≤ 'F' then some (char.toNat - 55)
  else none

def hexUnit? (first second third fourth : Char) : Option Nat := do
  some (((← hexValue? first) * 16 + (← hexValue? second)) * 256 +
    (← hexValue? third) * 16 + (← hexValue? fourth))

def isLeading (unit : Nat) : Bool := 0xd800 ≤ unit && unit ≤ 0xdbff

def isTrailing (unit : Nat) : Bool := 0xdc00 ≤ unit && unit ≤ 0xdfff

def simpleEscape? (letter : Char) : Option Char :=
  if letter = '"' then some '"'
  else if letter = '\\' then some '\\'
  else if letter = '/' then some '/'
  else if letter = 'b' then some '\x08'
  else if letter = 'f' then some '\x0c'
  else if letter = 'n' then some '\n'
  else if letter = 'r' then some '\r'
  else if letter = 't' then some '\t'
  else none

/-- The character of a leading surrogate and the escaped trailing one after it. -/
def scanPartner (leading : Nat) : List Char → Option (Char × List Char)
  | '\\' :: 'u' :: a :: b :: c :: d :: rest =>
      match hexUnit? a b c d with
      | some unit =>
          if isTrailing unit then
            some (Char.ofNat (0x10000 + (leading - 0xd800) * 1024 + (unit - 0xdc00)), rest)
          else none
      | none => none
  | _ => none

def scanUnit : List Char → Option (Char × List Char)
  | a :: b :: c :: d :: rest =>
      match hexUnit? a b c d with
      | some unit =>
          if isTrailing unit then none
          else if isLeading unit then scanPartner unit rest
          else some (Char.ofNat unit, rest)
      | none => none
  | _ => none

def scanChar : List Char → Option (Char × List Char)
  | [] => none
  | '\\' :: 'u' :: rest => scanUnit rest
  | '\\' :: letter :: rest => (simpleEscape? letter).map (·, rest)
  | char :: rest => if char = '\\' || char.toNat < 32 then none else some (char, rest)

private theorem length_of_scanPartner {leading : Nat} {input rest : List Char} {char : Char}
    (scanned : scanPartner leading input = some (char, rest)) : rest.length < input.length := by
  unfold scanPartner at scanned
  split at scanned
  · split at scanned
    · split at scanned
      · simp only [Option.some.injEq, Prod.mk.injEq] at scanned
        simp only [← scanned.2, List.length_cons]
        omega
      · simp at scanned
    · simp at scanned
  · simp at scanned

private theorem length_of_scanUnit {input rest : List Char} {char : Char}
    (scanned : scanUnit input = some (char, rest)) : rest.length < input.length := by
  unfold scanUnit at scanned
  split at scanned
  · split at scanned
    · split at scanned
      · simp at scanned
      · split at scanned
        · have shorter := length_of_scanPartner scanned
          simp only [List.length_cons]
          omega
        · simp only [Option.some.injEq, Prod.mk.injEq] at scanned
          simp only [← scanned.2, List.length_cons]
          omega
    · simp at scanned
  · simp at scanned

theorem length_of_scanChar {input rest : List Char} {char : Char}
    (scanned : scanChar input = some (char, rest)) : rest.length < input.length := by
  unfold scanChar at scanned
  split at scanned
  · simp at scanned
  · have shorter := length_of_scanUnit scanned
    simp only [List.length_cons]
    omega
  · simp only [Option.map_eq_some_iff, Prod.mk.injEq] at scanned
    obtain ⟨_, _, _, same⟩ := scanned
    simp only [← same, List.length_cons]
    omega
  · split at scanned
    · simp at scanned
    · simp only [Option.some.injEq, Prod.mk.injEq] at scanned
      simp only [← scanned.2, List.length_cons]
      omega

/-- Gather the characters up to the closing quote, and give the rest after it. -/
def scanString (gathered : List Char) (input : List Char) : Option (List Char × List Char) :=
  match input with
  | '"' :: rest => some (gathered.reverse, rest)
  | input =>
      match scanned : scanChar input with
      | none => none
      | some (char, rest) =>
          have := length_of_scanChar scanned
          scanString (char :: gathered) rest
termination_by input.length

theorem length_of_scanString {gathered input chars rest : List Char}
    (scanned : scanString gathered input = some (chars, rest)) :
    rest.length < input.length := by
  fun_induction scanString gathered input with
  | case1 gathered after =>
      simp only [Option.some.injEq, Prod.mk.injEq] at scanned
      simp [← scanned.2]
  | case2 => simp at scanned
  | case3 gathered input _ char after first shorter induction =>
      exact Nat.lt_trans (induction scanned) shorter

/-- Read one token off a text that does not begin with a blank. -/
def scan : List Char → Option (Token × List Char)
  | '[' :: rest => some (beginArray, rest)
  | ']' :: rest => some (endArray, rest)
  | '{' :: rest => some (beginObject, rest)
  | '}' :: rest => some (endObject, rest)
  | ':' :: rest => some (colon, rest)
  | ',' :: rest => some (comma, rest)
  | 'n' :: 'u' :: 'l' :: 'l' :: rest => some (null, rest)
  | 't' :: 'r' :: 'u' :: 'e' :: rest => some (bool true, rest)
  | 'f' :: 'a' :: 'l' :: 's' :: 'e' :: rest => some (bool false, rest)
  | '"' :: rest =>
      (scanString [] rest).map fun (chars, rest) => (string (String.ofList chars), rest)
  | input =>
      (Numeral.scan input).bind fun (numeral, rest) =>
        numeral.value?.map fun value => (number value, rest)

theorem length_of_scan {input rest : List Char} {token : Token}
    (scanned : scan input = some (token, rest)) : rest.length < input.length := by
  unfold scan at scanned
  split at scanned
  case h_10 =>
    simp only [Option.map_eq_some_iff, Prod.exists, Prod.mk.injEq] at scanned
    obtain ⟨chars, after, inside, _, same⟩ := scanned
    have := length_of_scanString inside
    simp only [← same, List.length_cons]
    omega
  case h_11 =>
    simp only [Option.bind_eq_some_iff, Option.map_eq_some_iff, Prod.exists, Prod.mk.injEq]
      at scanned
    obtain ⟨numeral, after, inside, _, _, _, same⟩ := scanned
    exact same ▸ Numeral.length_of_scan inside
  all_goals
    simp only [Option.some.injEq, Prod.mk.injEq] at scanned
    simp only [← scanned.2, List.length_cons]
    omega

def scanAll (gathered : List Token) (input : List Char) : Option (List Token) :=
  match input with
  | [] => some gathered.reverse
  | char :: rest =>
      if isBlank char then
        scanAll gathered rest
      else
        match scanned : scan (char :: rest) with
        | none => none
        | some (token, after) =>
            have := length_of_scan scanned
            scanAll (token :: gathered) after
termination_by input.length
decreasing_by
  · exact Nat.lt_succ_self _
  · assumption

end Token

end SealedCatalog.Json
