import SealedCatalog.Json.Value
import SealedCatalog.Query.Command

/-!
Queries in JSON. A query is written with the names and the types of its entries; it is read with
their names alone, which a schema resolves, and a command may stand for a part.
-/

namespace SealedCatalog.Query

def entryJson (entry : Entry) : Json :=
  .object [("name", .string entry.name), ("type", .string entry.entryType.name)]

mutual

def toJson : Query → Json
  | all parts => .object [("and", .array (toJsonAll parts))]
  | any parts => .object [("or", .array (toJsonAll parts))]
  | not part => .object [("not", toJson part)]
  | mentions text => .object [("text", .string text)]
  | has entry => .object [("has", entryJson entry)]
  | includes entry text => .object [("partial", entryJson entry), ("text", .string text)]
  | exactly entry text => .object [("exact", entryJson entry), ("text", .string text)]
  | compare entry relation target operand =>
      .object [("compare", entryJson entry), ("op", .string relation.symbol.toString),
        ("target", .string target), ("operand", .string operand)]

def toJsonAll : List Query → List Json
  | [] => []
  | part :: rest => toJson part :: toJsonAll rest

end

mutual

/-- The query of a document in canonical form. -/
def ofJson? (configuration : Configuration) : Json → Option Query
  | .object [("and", .array parts)] => (ofJsonAll? configuration parts).map all
  | .object [("or", .array parts)] => (ofJsonAll? configuration parts).map any
  | .object [("not", part)] => (ofJson? configuration part).map not
  | .object [("command", .string command)] => ofCommand? configuration command
  | .object [("text", .string text)] => some (mentions text)
  | .object [("has", .string name)] => (configuration.find? name).map has
  | .object [("partial", .string name), ("text", .string text)] =>
      (configuration.find? name).map fun entry => includes entry text
  | .object [("exact", .string name), ("text", .string text)] =>
      (configuration.find? name).map fun entry => exactly entry text
  | .object [("by", .string symbol), ("compare", .string name), ("operand", .string operand),
      ("target", .string target)] => do
      let relation ← symbol.toList.head?.bind Relation.ofSymbol?
      return compare (← configuration.find? name) relation target operand
  | _ => none

def ofJsonAll? (configuration : Configuration) : List Json → Option (List Query)
  | [] => some []
  | part :: rest => do return (← ofJson? configuration part) :: (← ofJsonAll? configuration rest)

end

end SealedCatalog.Query
