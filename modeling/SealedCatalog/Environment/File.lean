import SealedCatalog.Bytes
import SealedCatalog.Environment
import SealedCatalog.Text.Blank

/-!
Files that set variables, a line for each: `NAME=value`, perhaps after `export`. A value may be
quoted; double quotes, and no quotes, let a backslash escape and a dollar sign refer to a variable.
A quoted value may go on over several lines. The first line that is not well formed ends the file,
the lines before it having been read.
-/

namespace SealedCatalog.Environment

/-- Where a line may end: within quotes or after a backslash it goes on. -/
inductive LineState where
  | plain
  /-- After a blank, where a comment may begin. -/
  | blank
  | escape
  | single
  | singleEscape
  | double
  | doubleEscape
deriving DecidableEq, Inhabited, Repr

namespace LineState

private def opened (char : Char) : LineState :=
  if char = '\\' then escape
  else if char = '"' then double
  else if char = '\'' then single
  else plain

def after (char : Char) : LineState → LineState
  | plain => if Text.isBlank char && char != '\n' && char != '\r' then blank else opened char
  | blank => opened char
  | escape => plain
  | single => if char = '\\' then singleEscape else if char = '\'' then plain else single
  | singleEscape => single
  | double => if char = '\\' then doubleEscape else if char = '"' then plain else double
  | doubleEscape => double

/-- The state at the end of a line, and what stands before the comment if there is one. -/
def scan (state : LineState) : List Char → LineState × Option (List Char)
  | [] => (state, none)
  | char :: rest =>
      if state = blank && char = '#' then (state, some [])
      else
        let (final, before) := scan (state.after char) rest
        (final, before.map (char :: ·))

end LineState

private def withoutLineEnd (line : List Char) : List Char :=
  match line.reverse with
  | '\n' :: '\r' :: rest => rest.reverse
  | '\n' :: rest => rest.reverse
  | _ => line

/-- Join the lines that a quoted value goes on over. `held` are the characters of the lines joined
so far. Nothing stands for a file that ends too early. -/
def joinLines (held : List Char) (state : LineState) : List (List Char) → List (Option (List Char))
  | [] => if state = .plain then [] else [none]
  | line :: rest =>
      let text := held ++ line
      if (Text.trimStart text).head? = some '#' then some [] :: joinLines [] .plain rest
      else
        match state.scan line with
        | (_, some before) => some (held ++ before) :: joinLines [] .plain rest
        | (.plain, none) => some (withoutLineEnd text) :: joinLines [] .plain rest
        | (other, none) => joinLines text other rest

inductive Reference where
  | none
  | bare (name : List Char)
  | braced (name : List Char)
deriving DecidableEq, Inhabited, Repr

inductive Quotation where
  | none
  | single
  | double
deriving DecidableEq, Inhabited, Repr

/-- How much of a value has been read. Names and the value itself have their last character
first. -/
structure ValueReader where
  read : List Char
  quotation : Quotation
  escaped : Bool
  ended : Bool
  reference : Reference
deriving Inhabited

namespace ValueReader

def start : ValueReader := ⟨[], .none, false, false, .none⟩

private def push (reader : ValueReader) (char : Char) : ValueReader :=
  { reader with read := char :: reader.read }

/-- The value of the variable whose name is given backwards, itself backwards. An unset variable
is empty. -/
private def referred (environment : Environment) (name : List Char) : List Char :=
  ((environment.get? (String.ofList name.reverse)).getD "").toList.reverse

private def resolve (environment : Environment) (reader : ValueReader) (name : List Char) :
    ValueReader :=
  { reader with read := referred environment name ++ reader.read, reference := .none }

private def escape? (reader : ValueReader) (char : Char) : Option ValueReader :=
  let reader := { reader with escaped := false }
  if char = 'n' then some (reader.push '\n')
  else if char = '\\' || char = '\'' || char = '"' || char = '$' || char = ' ' then
    some (reader.push char)
  else none

private def braced (environment : Environment) (reader : ValueReader) (name : List Char)
    (char : Char) : ValueReader :=
  if char = '\x7d' then reader.resolve environment name
  else { reader with reference := .braced (char :: name) }

/-- Read a character of a reference without braces. Its name has ASCII letters and digits; what
comes after it stands for itself, a quote too. -/
private def bare (environment : Environment) (reader : ValueReader) (name : List Char)
    (char : Char) : ValueReader :=
  if char.isAlphanum then { reader with reference := .bare (char :: name) }
  else if char = '\x7b' && name.isEmpty then { reader with reference := .braced [] }
  else
    let resolved := reader.resolve environment name
    if char = '$' then { resolved with reference := .bare [] } else resolved.push char

private def unquoted (reader : ValueReader) (char : Char) : ValueReader :=
  if char = '$' then { reader with reference := .bare [] }
  else if char = '\\' then { reader with escaped := true }
  else if reader.quotation = .double then
    if char = '"' then { reader with quotation := .none } else reader.push char
  else if char = '\'' then { reader with quotation := .single }
  else if char = '"' then { reader with quotation := .double }
  else if char = ' ' || char = '\t' then { reader with ended := true }
  else reader.push char

private def step? (environment : Environment) (reader : ValueReader) (char : Char) :
    Option ValueReader :=
  if reader.escaped then reader.escape? char
  else if reader.quotation = .single then
    some (if char = '\'' then { reader with quotation := .none } else reader.push char)
  else
    match reader.reference with
    | .braced name => some (reader.braced environment name char)
    | .bare name => some (reader.bare environment name char)
    | .none => some (reader.unquoted char)

private def finish? (environment : Environment) (reader : ValueReader) : Option String :=
  if reader.quotation != .none then none
  else
    match reader.reference with
    | .braced _ => none
    | .bare name => some (String.ofList (reader.resolve environment name).read.reverse)
    | .none => some (String.ofList reader.read.reverse)

/-- The value that the characters spell. After its end only blanks and a comment may follow. -/
def value? (environment : Environment) (reader : ValueReader) : List Char → Option String
  | [] => reader.finish? environment
  | char :: rest =>
      if reader.ended then
        if char = ' ' || char = '\t' then reader.value? environment rest
        else if char = '#' then reader.finish? environment
        else none
      else (reader.step? environment char).bind fun next => next.value? environment rest

end ValueReader

private def isNameStart (char : Char) : Bool :=
  char.isAlpha || char == '_'

private def isNamePart (char : Char) : Bool :=
  char.isAlphanum || char == '_' || char == '.'

private def name? (text : List Char) : Option (String × List Char) :=
  if text.head?.any isNameStart then
    some (String.ofList (text.takeWhile isNamePart), Text.trimStart (text.dropWhile isNamePart))
  else none

private def afterEqual? : List Char → Option (List Char)
  | '=' :: rest => some rest
  | _ => none

/-- The name that a line sets and what stands after the equal sign. The word `export` before the
name means nothing. -/
private def assignment? (line : List Char) : Option (String × List Char) := do
  let (name, rest) ← name? line
  match afterEqual? rest with
  | some value => some (name, value)
  | none =>
      if name = "export" then
        let (exported, rest) ← name? rest
        return (exported, ← afterEqual? rest)
      else none

/-- Set what a line sets. A variable that is set keeps its value. -/
def readLine? (environment : Environment) (line : List Char) : Option Environment :=
  let text := Text.trim line
  if text.isEmpty || text.head? = some '#' then some environment
  else do
    let (name, rest) ← assignment? text
    let spelled := Text.trimStart rest
    if spelled.isEmpty || spelled.head? = some '#' then
      return environment.setDefault name ""
    else
      return environment.setDefault name (← ValueReader.start.value? environment spelled)

/-- Set what lines set, up to the first that is not well formed. -/
def readLines (environment : Environment) : List (Option (List Char)) → Environment
  | [] => environment
  | none :: _ => environment
  | some line :: rest =>
      match readLine? environment line with
      | some extended => readLines extended rest
      | none => environment

/-- The lines of a file, each with its line end, up to the first that is not UTF-8. -/
def textLines (started : Bytes) : Bytes → List (Option (List Char))
  | [] => if started.isEmpty then [] else [(Bytes.toText? started.reverse).map String.toList]
  | byte :: rest =>
      if byte = 0x0a then
        (Bytes.toText? (byte :: started).reverse).map String.toList :: textLines [] rest
      else textLines (byte :: started) rest

def byteOrderMark : Bytes := [0xef, 0xbb, 0xbf]

def extend (environment : Environment) (file : Bytes) : Environment :=
  let content := if byteOrderMark.isPrefixOf file then file.drop 3 else file
  let lines := textLines [] content
  let whole := (lines.takeWhile Option.isSome).filterMap id
  environment.readLines (joinLines [] .plain whole)

end SealedCatalog.Environment
