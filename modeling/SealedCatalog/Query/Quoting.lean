import SealedCatalog.Text.Replacement

/-!
Entry names in commands. A bare name ends before the first operator. A name that holds an operator
or begins with a quote is quoted: a quote and a backslash inside are written after a backslash.
-/

namespace SealedCatalog.Query

def isOperator (char : Char) : Bool :=
  char == '=' || char == ':' || char == '>' || char == '<' || char == '@'

namespace Quoting

def escape (name : List Char) : List Char :=
  Text.replaceAll ['"'] ['\\', '"'] (Text.replaceAll ['\\'] ['\\', '\\'] name)

def unescape (written : List Char) : List Char :=
  Text.replaceAll ['\\', '\\'] ['\\'] (Text.replaceAll ['\\', '"'] ['"'] written)

def quoted (name : List Char) : List Char :=
  '"' :: (escape name ++ ['"'])

/-- Whether a name would be misread without quotes. -/
def needsQuotes (name : List Char) : Bool :=
  name.head? == some '"' || name.any isOperator

def enclose (name : String) : String :=
  if needsQuotes name.toList then String.ofList (quoted name.toList) else name

/-- One character between quotes as it is written, and what follows it. A quote and a backslash
need a backslash before them, and nothing else may have one. -/
def scanWritten? : List Char → Option (List Char × List Char)
  | '\\' :: '"' :: rest => some (['\\', '"'], rest)
  | '\\' :: '\\' :: rest => some (['\\', '\\'], rest)
  | char :: rest => if char = '\\' || char = '"' then none else some ([char], rest)
  | [] => none

theorem length_of_scanWritten {text written rest : List Char}
    (scanned : scanWritten? text = some (written, rest)) : rest.length < text.length := by
  unfold scanWritten? at scanned
  split at scanned
  case h_3 =>
    split at scanned
    · simp at scanned
    · simp only [Option.some.injEq, Prod.mk.injEq] at scanned
      simp [← scanned.2]
  case h_4 => simp at scanned
  all_goals
    simp only [Option.some.injEq, Prod.mk.injEq] at scanned
    simp only [← scanned.2, List.length_cons]
    omega

/-- What is written between quotes, up to the first quote that can close it, and what follows that
quote. Something must be written there. -/
def scanInside? (text : List Char) : Option (List Char × List Char) :=
  match scanned : scanWritten? text with
  | none => none
  | some (written, '"' :: remainder) => some (written, remainder)
  | some (written, rest) =>
      have := length_of_scanWritten scanned
      (scanInside? rest).map fun (more, remainder) => (written ++ more, remainder)
termination_by text.length

/-- The quoted name that a text begins with, and what follows it. The name is not empty. -/
def extract? : List Char → Option (List Char × List Char)
  | '"' :: rest => (scanInside? rest).map fun (written, remainder) => (unescape written, remainder)
  | _ => none

end Quoting

/-- The place in bytes of the first operator of a text. -/
def operatorOffset? (text : String) : Option Nat :=
  if text.toList.any isOperator then
    some (String.ofList (text.toList.takeWhile fun char => !isOperator char)).utf8ByteSize
  else none

end SealedCatalog.Query
