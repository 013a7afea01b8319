import SealedCatalog.Action
import SealedCatalog.CommandLine

/-!
The subcommands of the program: the options of each, and the action that it stands for.
-/

namespace SealedCatalog.CommandLine

inductive Invocation where
  | act (action : Action)
  | serveKdf
deriving DecidableEq, Inhabited, Repr

structure Subcommand where
  name : String
  grammar : Grammar
  /-- What the arguments ask for, options being filled in from the environment. -/
  build : Environment → Arguments → Except Stop Invocation

namespace Subcommand

private def switch (name : String) (letter : Option Char) : CommandOption :=
  ⟨name, letter, .switch, none⟩

private def catalogOption : CommandOption :=
  ⟨"catalog", some 'c', .path, some Environment.catalogVariable⟩

private def passwordOption : CommandOption :=
  ⟨"password", some 'p', .text, some Environment.passwordVariable⟩

private def accessOptions : List CommandOption := [catalogOption, passwordOption]

private def sortOption : CommandOption := ⟨"sort", some 's', .text, none⟩

private def descendingSwitch : CommandOption := switch "descending" (some 'd')

private def anySwitch : CommandOption := switch "any" none

private def inputOption : CommandOption := ⟨"input", some 'i', .path, none⟩

private def outputOption : CommandOption := ⟨"output", some 'o', .path, none⟩

private def forceSwitch : CommandOption := switch "force" none

private def idOption : CommandOption := ⟨"id", none, .text, none⟩

private def recordOption : CommandOption := ⟨"record", some 'r', .path, none⟩

private def imageSwitch : CommandOption := switch "has-image" none

private def newPasswordOption : CommandOption :=
  ⟨"new-password", none, .text, some Environment.newPasswordVariable⟩

private def imagesOption : CommandOption :=
  ⟨"images", none, .path, some Environment.imagesVariable⟩

private def thumbnailSwitch : CommandOption := switch "thumbnail" none

private def access (environment : Environment) (arguments : Arguments) : Except Stop Access := do
  return ⟨← arguments.value environment catalogOption, ← arguments.value environment passwordOption⟩

def all : List Subcommand := [
  { name := "info"
    grammar := ⟨[catalogOption], .none⟩
    build := fun environment arguments => do
      return .act (.describe (← arguments.value environment catalogOption)) },
  { name := "list"
    grammar := ⟨accessOptions ++ [sortOption, descendingSwitch], .none⟩
    build := fun environment arguments => do
      return .act (.list (← access environment arguments)
        (← arguments.value? environment sortOption) (arguments.isOn descendingSwitch)) },
  { name := "search"
    grammar := ⟨accessOptions ++ [anySwitch], .several⟩
    build := fun environment arguments => do
      if arguments.operands.isEmpty then
        throw .misused
      return .act (.search (← access environment arguments) arguments.operands
        (arguments.isOn anySwitch)) },
  { name := "operators"
    grammar := ⟨accessOptions, .none⟩
    build := fun environment arguments => do
      return .act (.listOperators (← access environment arguments)) },
  { name := "check-config"
    grammar := ⟨[], .one .path⟩
    build := fun _ arguments => do
      return .act (.checkConfiguration (← arguments.firstOperand)) },
  { name := "diagnose"
    grammar := ⟨accessOptions, .none⟩
    build := fun environment arguments => do
      return .act (.diagnose (← access environment arguments)) },
  { name := "seal"
    grammar := ⟨[inputOption, outputOption, passwordOption, forceSwitch], .none⟩
    build := fun environment arguments => do
      return .act (.sealPlain (← arguments.value environment inputOption)
        (← arguments.value environment outputOption)
        (← arguments.value environment passwordOption) (arguments.isOn forceSwitch)) },
  { name := "import"
    grammar := ⟨accessOptions ++ [idOption, recordOption, imageSwitch], .none⟩
    build := fun environment arguments => do
      return .act (.addRecord (← access environment arguments)
        (← arguments.value environment idOption) (← arguments.value environment recordOption)
        (arguments.isOn imageSwitch)) },
  { name := "passwd"
    grammar := ⟨accessOptions ++ [newPasswordOption], .none⟩
    build := fun environment arguments => do
      return .act (.changePassword (← access environment arguments)
        (← arguments.value environment newPasswordOption)) },
  { name := "image"
    grammar := ⟨accessOptions ++ [imagesOption, thumbnailSwitch, outputOption], .one .text⟩
    build := fun environment arguments => do
      return .act (.exportImage (← access environment arguments)
        (← arguments.value environment imagesOption) (← arguments.firstOperand)
        (arguments.isOn thumbnailSwitch) (← arguments.value environment outputOption)) },
  { name := "kdf-worker"
    grammar := ⟨[], .none⟩
    build := fun _ _ => .ok .serveKdf }]

def named? (name : String) : Option Subcommand :=
  all.find? fun subcommand => subcommand.name == name

end Subcommand

def helpName : String := "help"

def readHelp : List String → Stop
  | [] => .help
  | [name] => if name = helpName || (Subcommand.named? name).isSome then .help else .misused
  | _ => .misused

def invocation (environment : Environment) : List String → Except Stop Invocation
  | [] => .error .misused
  | word :: rest =>
      if Grammar.isOption word then
        match Grammar.parse ⟨[], .none⟩ [word] with
        | .error stop => .error stop
        | .ok _ => .error .misused
      else if word = helpName then .error (readHelp rest)
      else
        match Subcommand.named? word with
        | none => .error .misused
        | some subcommand => do
            subcommand.build environment (← subcommand.grammar.parse rest)

end SealedCatalog.CommandLine
