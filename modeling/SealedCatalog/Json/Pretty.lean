import SealedCatalog.Json.Writer

/-!
JSON text for reading: each item and each field on a line of its own, two blanks further in than
what it belongs to.
-/

namespace SealedCatalog.Json

def lineStart (depth : Nat) : List Char :=
  '\n' :: List.replicate (2 * depth) ' '

mutual

/-- The characters of a document whose first line is begun. -/
def writePretty (depth : Nat) : Json → List Char
  | array (item :: rest) =>
      '[' :: (lineStart (depth + 1) ++ item.writePretty (depth + 1) ++
        writePrettyItems depth rest ++ lineStart depth ++ [']'])
  | object ((key, value) :: rest) =>
      '\x7b' :: (lineStart (depth + 1) ++ writeString key ++ [':', ' '] ++
        value.writePretty (depth + 1) ++ writePrettyFields depth rest ++ lineStart depth ++
        ['\x7d'])
  | other => other.write

def writePrettyItems (depth : Nat) : List Json → List Char
  | [] => []
  | item :: rest =>
      ',' :: (lineStart (depth + 1) ++ item.writePretty (depth + 1) ++
        writePrettyItems depth rest)

def writePrettyFields (depth : Nat) : List (String × Json) → List Char
  | [] => []
  | (key, value) :: rest =>
      ',' :: (lineStart (depth + 1) ++ writeString key ++ [':', ' '] ++
        value.writePretty (depth + 1) ++ writePrettyFields depth rest)

end

def renderPretty (document : Json) : String :=
  String.ofList (document.canonical.writePretty 0)

end SealedCatalog.Json
