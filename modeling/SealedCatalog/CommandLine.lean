import SealedCatalog.Environment

/-!
Command lines: options, which may come in any order, and operands between them. A long option has
its value after an equal sign or in the next word; letters may share a word, and the value of the
last one may follow at once. After two dashes all words are operands. The first word that does not
fit decides that the line is misused, a request for help before it that help is given.
-/

namespace SealedCatalog.CommandLine

inductive Stop where
  | help
  | version
  | misused
deriving DecidableEq, Repr

inductive OptionForm where
  | switch
  | text
  /-- A text that is not empty. -/
  | path
deriving DecidableEq, Inhabited, Repr

/-- An option of a command line. Its name stands after two dashes, its letter after one. -/
structure CommandOption where
  name : String
  letter : Option Char
  form : OptionForm
  /-- The variable that stands in for the option. -/
  environmentName : Option String
deriving DecidableEq, Inhabited, Repr

inductive Operands where
  | none
  | one (form : OptionForm)
  /-- At least one text. -/
  | several
deriving DecidableEq, Inhabited, Repr

structure Grammar where
  options : List CommandOption
  operands : Operands
deriving Inhabited

structure Arguments where
  values : Dict String
  switches : List String
  operands : List String
deriving Inhabited

namespace Arguments

def empty : Arguments := ⟨Dict.empty, [], []⟩

def fits (form : OptionForm) (word : String) : Bool :=
  form != .path || word != ""

/-- Give an option a value, which it must not have yet. -/
def give (arguments : Arguments) (option : CommandOption) (value : String) :
    Except Stop Arguments :=
  if !fits option.form value || arguments.values.contains option.name then .error .misused
  else .ok { arguments with values := arguments.values.insert option.name value }

def turnOn (arguments : Arguments) (option : CommandOption) : Except Stop Arguments :=
  if arguments.switches.contains option.name then .error .misused
  else .ok { arguments with switches := option.name :: arguments.switches }

def operand (arguments : Arguments) (operands : Operands) (word : String) :
    Except Stop Arguments :=
  let room := match operands with
    | .none => false
    | .one form => arguments.operands.isEmpty && fits form word
    | .several => true
  if room then .ok { arguments with operands := arguments.operands ++ [word] }
  else .error .misused

end Arguments

namespace Grammar

def named? (grammar : Grammar) (name : String) : Option CommandOption :=
  grammar.options.find? fun option => option.name == name

def lettered? (grammar : Grammar) (letter : Char) : Option CommandOption :=
  grammar.options.find? fun option => option.letter == some letter

/-- What a word leaves to the next one: the arguments so far, and the option that waits for its
value. -/
abbrev Progress := Arguments × Option CommandOption

def readLetters (grammar : Grammar) (arguments : Arguments) :
    List Char → Except Stop Progress
  | [] => .ok (arguments, none)
  | letter :: rest =>
      if letter = 'h' then .error .help
      else if letter = 'V' then .error .version
      else
        match grammar.lettered? letter with
        | none => .error .misused
        | some option =>
            if option.form = .switch then do
              readLetters grammar (← arguments.turnOn option) rest
            else
              match rest with
              | [] => .ok (arguments, some option)
              | '=' :: value => do return (← arguments.give option (String.ofList value), none)
              | value => do return (← arguments.give option (String.ofList value), none)

def readLong (grammar : Grammar) (arguments : Arguments) (word : List Char) :
    Except Stop Progress :=
  let name := String.ofList (word.takeWhile (· != '='))
  let value? := match word.dropWhile (· != '=') with
    | [] => none
    | _ :: value => some (String.ofList value)
  if name = "help" then .error (if value?.isNone then .help else .misused)
  else if name = "version" then .error (if value?.isNone then .version else .misused)
  else
    match grammar.named? name with
    | none => .error .misused
    | some option =>
        if option.form = .switch then
          if value?.isNone then do return (← arguments.turnOn option, none)
          else .error .misused
        else
          match value? with
          | none => .ok (arguments, some option)
          | some value => do return (← arguments.give option value, none)

def readOperands (grammar : Grammar) (arguments : Arguments) : List String →
    Except Stop Arguments
  | [] => .ok arguments
  | word :: rest => do
      readOperands grammar (← arguments.operand grammar.operands word) rest

/-- Whether a word is an option and no operand. A single dash is an operand. -/
def isOption (word : String) : Bool :=
  word != "-" && word.toList.head? == some '-'

/-- Read words, of which the first may be the value that an option waits for. -/
def read (grammar : Grammar) (arguments : Arguments) (waiting : Option CommandOption) :
    List String → Except Stop Arguments
  | [] => if waiting.isNone then .ok arguments else .error .misused
  | word :: rest =>
      match waiting with
      | some option =>
          if isOption word then .error .misused
          else do read grammar (← arguments.give option word) none rest
      | none =>
          match word.toList with
          | ['-', '-'] => readOperands grammar arguments rest
          | '-' :: '-' :: long => do
              let (next, waiting) ← readLong grammar arguments long
              read grammar next waiting rest
          | '-' :: letter :: letters => do
              let (next, waiting) ← readLetters grammar arguments (letter :: letters)
              read grammar next waiting rest
          | _ => do read grammar (← arguments.operand grammar.operands word) none rest

def parse (grammar : Grammar) (words : List String) : Except Stop Arguments :=
  grammar.read Arguments.empty none words

end Grammar

namespace Arguments

/-- The value of an option, which its variable may stand in for. -/
def value? (arguments : Arguments) (environment : Environment) (option : CommandOption) :
    Except Stop (Option String) :=
  match arguments.values.get? option.name with
  | some value => .ok (some value)
  | none =>
      match option.environmentName.bind environment.get? with
      | some value => if fits option.form value then .ok (some value) else .error .misused
      | none => .ok none

def value (arguments : Arguments) (environment : Environment) (option : CommandOption) :
    Except Stop String := do
  match ← arguments.value? environment option with
  | some value => return value
  | none => throw .misused

def isOn (arguments : Arguments) (option : CommandOption) : Bool :=
  arguments.switches.contains option.name

def firstOperand (arguments : Arguments) : Except Stop String :=
  match arguments.operands with
  | first :: _ => .ok first
  | [] => .error .misused

end Arguments

end SealedCatalog.CommandLine
