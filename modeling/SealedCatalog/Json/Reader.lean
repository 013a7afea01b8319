import SealedCatalog.Json.Token

/-!
Reading JSON text. The reader goes through the tokens with a stack of the arrays and objects that
are open; no more than 127 may be open at once. `read?` keeps a document as it is written, fields
in order and repeated keys included; `parse?` gives the value it stands for.
-/

namespace SealedCatalog.Json

/-- The most arrays and objects that may be open at once. -/
def maxDepth : Nat := 127

/-- An open array or object, with what stands before the current value in reverse order. -/
inductive Frame where
  | items (before : List Json)
  | fields (before : List (String × Json)) (key : String)
deriving Inhabited

/-- What has been read, by what may follow. -/
inductive Reading where
  | value (stack : List Frame)
  /-- An array was opened; an item or its end must follow. -/
  | firstItem (stack : List Frame)
  /-- An object was opened; a key or its end must follow. -/
  | firstKey (stack : List Frame)
  | key (before : List (String × Json)) (stack : List Frame)
  | colon (before : List (String × Json)) (key : String) (stack : List Frame)
  /-- A comma or the end of the array must follow. -/
  | moreItems (before : List Json) (stack : List Frame)
  | moreFields (before : List (String × Json)) (stack : List Frame)
  | done (document : Json)
deriving Inhabited

namespace Reading

def finish (complete : Json) : List Frame → Reading
  | [] => done complete
  | .items before :: stack => moreItems (complete :: before) stack
  | .fields before name :: stack => moreFields ((name, complete) :: before) stack

def start (stack : List Frame) : Token → Option Reading
  | .null => some (finish .null stack)
  | .bool truth => some (finish (.bool truth) stack)
  | .number number => some (finish number stack)
  | .string text => some (finish (.string text) stack)
  | .beginArray => if stack.length < maxDepth then some (firstItem stack) else none
  | .beginObject => if stack.length < maxDepth then some (firstKey stack) else none
  | _ => none

def step : Reading → Token → Option Reading
  | value stack, token => start stack token
  | firstItem stack, .endArray => some (finish (.array []) stack)
  | firstItem stack, token => start (.items [] :: stack) token
  | firstKey stack, .endObject => some (finish (.object []) stack)
  | firstKey stack, .string name => some (colon [] name stack)
  | key before stack, .string name => some (colon before name stack)
  | colon before name stack, .colon => some (value (.fields before name :: stack))
  | moreItems before stack, .comma => some (value (.items before :: stack))
  | moreItems before stack, .endArray => some (finish (.array before.reverse) stack)
  | moreFields before stack, .comma => some (key before stack)
  | moreFields before stack, .endObject => some (finish (.object before.reverse) stack)
  | _, _ => none

def document? : Reading → Option Json
  | done document => some document
  | _ => none

end Reading

def ofTokens? (tokens : List Token) : Option Json :=
  (tokens.foldlM Reading.step (.value [])).bind Reading.document?

/-- The document of a text, as it is written. -/
def read? (text : String) : Option Json :=
  (Token.scanAll [] text.toList).bind ofTokens?

/-- The value that a text stands for. -/
def parse? (text : String) : Option Json :=
  (read? text).map canonical

end SealedCatalog.Json
