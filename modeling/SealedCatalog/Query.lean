import SealedCatalog.Entry

/-!
Queries: conditions on records, combined by and, or and not.
-/

namespace SealedCatalog

inductive Relation where
  | less
  | equal
  | greater
deriving DecidableEq, Inhabited, Repr

namespace Relation

def symbol : Relation → Char
  | less => '<'
  | equal => '@'
  | greater => '>'

def ofSymbol? : Char → Option Relation
  | '<' => some less
  | '@' => some equal
  | '>' => some greater
  | _ => none

def holds (relation : Relation) (key target : String) : Bool :=
  match relation with
  | less => decide (key < target)
  | equal => key == target
  | greater => decide (target < key)

end Relation

inductive Query where
  | all (parts : List Query)
  | any (parts : List Query)
  | not (part : Query)
  /-- The text occurs in the value of some configured entry. -/
  | mentions (text : String)
  | has (entry : Entry)
  | includes (entry : Entry) (text : String)
  | exactly (entry : Entry) (text : String)
  /-- The sort key of the value relates to the target, which is the key of the operand. -/
  | compare (entry : Entry) (relation : Relation) (target operand : String)
deriving Inhabited

namespace Query

def combine (anySuffices : Bool) (parts : List Query) : Query :=
  if anySuffices then any parts else all parts

mutual

def isSame : Query → Query → Bool
  | all left, all right => areSame left right
  | any left, any right => areSame left right
  | not left, not right => isSame left right
  | mentions left, mentions right => left == right
  | has left, has right => left == right
  | includes leftEntry left, includes rightEntry right => leftEntry == rightEntry && left == right
  | exactly leftEntry left, exactly rightEntry right => leftEntry == rightEntry && left == right
  | compare leftEntry leftRelation leftTarget left,
    compare rightEntry rightRelation rightTarget right =>
      leftEntry == rightEntry && leftRelation == rightRelation && leftTarget == rightTarget &&
        left == right
  | _, _ => false

def areSame : List Query → List Query → Bool
  | [], [] => true
  | left :: moreLeft, right :: moreRight => isSame left right && areSame moreLeft moreRight
  | _, _ => false

end

def parts : Query → List Query
  | all parts => parts
  | any parts => parts
  | _ => []

/-- The query with one more part, if it has a list of parts. -/
def push? (query added : Query) : Option Query :=
  match query with
  | all parts => some (all (parts ++ [added]))
  | any parts => some (any (parts ++ [added]))
  | _ => none

private def without? (removed : Query) (parts : List Query) : Option (List Query) :=
  let kept := parts.filter fun part => !part.isSame removed
  if kept.length = parts.length then none else some kept

/-- The query without the parts that are the given one, if it has such a part. -/
def remove? (query removed : Query) : Option Query :=
  match query with
  | all parts => (without? removed parts).map all
  | any parts => (without? removed parts).map any
  | _ => none

/-- A part as it stands among others, in parentheses if it has several parts itself. -/
private def nested (part : Query) (explanation : String) : String :=
  if 1 < part.parts.length then "(" ++ explanation ++ ")" else explanation

private def joined (separator otherwise : String) : List String → String
  | [] => otherwise
  | explanations => separator.intercalate explanations

mutual

def explain : Query → String
  | all parts => joined " and " "anything" (explainParts parts)
  | any parts => joined " or " "nothing" (explainParts parts)
  | not part => "not " ++ nested part part.explain
  | mentions text => s!"includes \"{text}\""
  | has entry => s!"has entry \"{entry.name}\""
  | includes entry text => s!"entry \"{entry.name}\" includes \"{text}\""
  | exactly entry text => s!"entry \"{entry.name}\" is exactly \"{text}\""
  | compare entry relation _ operand =>
      let verb := match relation with
        | .less => "is less than"
        | .equal => "equals"
        | .greater => "is greater than"
      s!"entry \"{entry.name}\" {verb} \"{operand}\""

def explainParts : List Query → List String
  | [] => []
  | part :: rest => nested part part.explain :: explainParts rest

end

end Query

end SealedCatalog
