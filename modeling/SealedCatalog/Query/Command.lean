import SealedCatalog.Query
import SealedCatalog.Query.Quoting
import SealedCatalog.SortKey

/-!
Commands, the texts of queries. An exclamation mark before a command negates it. A dollar sign comes
before the name of an entry, which is bare or quoted; an operator and an operand may follow. Any
other text asks for itself in the values of all entries. A command with an unknown entry, without an
operand after its operator, or with a comparison that has no sort key is invalid.
-/

namespace SealedCatalog

namespace Query

def operators (entry : Entry) : List (Char × String) :=
  [(':', "contains"), ('=', "is exactly")] ++
    if entry.sortingMethod.isActive then
      [(Relation.less.symbol, "sorts before"), (Relation.equal.symbol, "sorts equal to"),
        (Relation.greater.symbol, "sorts after")]
    else []

/-- A comparison with an operand. It exists if the entry sorts and the operand has a key. -/
def comparison? (entry : Entry) (relation : Relation) (operand : String) : Option Query :=
  if entry.sortingMethod.isActive then
    (SortKey.encodeText entry.sortingMethod operand).map fun target =>
      compare entry relation target operand
  else none

def operation? (entry : Entry) (operator : Char) (operand : List Char) : Option Query :=
  if operand.isEmpty then none
  else if operator = ':' then some (includes entry (String.ofList operand))
  else if operator = '=' then some (exactly entry (String.ofList operand))
  else (Relation.ofSymbol? operator).bind fun relation =>
    comparison? entry relation (String.ofList operand)

/-- The name at the beginning of a text, bare or quoted, and what follows it. -/
def splitName? (text : List Char) : Option (List Char × List Char) :=
  if text.head? = some '"' then Quoting.extract? text
  else some (text.span fun char => !isOperator char)

def ofEntryText? (configuration : Configuration) (text : List Char) : Option Query :=
  if text.isEmpty then none
  else do
    let (name, remainder) ← splitName? text
    let entry ← configuration.find? (String.ofList name)
    match remainder with
    | [] => some (has entry)
    | operator :: operand => operation? entry operator operand

def ofChars? (configuration : Configuration) : List Char → Option Query
  | [] => none
  | '!' :: rest => (ofChars? configuration rest).map not
  | '$' :: rest => ofEntryText? configuration rest
  | command => some (mentions (String.ofList command))

def ofCommand? (configuration : Configuration) (command : String) : Option Query :=
  ofChars? configuration command.toList

def ofCommands? (configuration : Configuration) (commands : List String)
    (anySuffices : Bool) : Option Query :=
  (commands.mapM (ofCommand? configuration)).map (combine anySuffices)

end Query

end SealedCatalog
