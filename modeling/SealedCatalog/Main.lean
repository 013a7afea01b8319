import SealedCatalog.Json.Pretty
import SealedCatalog.Program

/-!
The program itself: it lets actions look at real files, changes those that reports ask for, and
prints the documents.
-/

open SealedCatalog

namespace SealedCatalog.Main

def versionText : String := "kura 2026.2.10"

def helpText : String :=
  let commands := (CommandLine.Subcommand.all.map (·.name)).filter (· != "kdf-worker")
  "Inspect, search and seal encrypted catalogs\n\nUsage: kura <COMMAND>\n\nCommands:\n  " ++
    "\n  ".intercalate (commands ++ [CommandLine.helpName])

def faultOf : IO.Error → FileFault
  | .noFileOrDirectory _ _ _ => .notFound
  | other => .other (toString other)

/-- The result of an effect, its failure being a value. -/
def attempt (effect : IO α) : IO (Except FileFault α) := do
  match ← effect.toBaseIO with
  | .ok value => return .ok value
  | .error reason => return .error (faultOf reason)

def readFile (path : String) : IO (Except FileFault Bytes) :=
  attempt do return (← IO.FS.readBinFile path).toList

/-- Whether something stands at a path. What may not be opened is there. -/
def isPresent (path : String) : IO (Except FileFault Bool) := do
  match ← attempt (discard (IO.FS.Handle.mk path .read)) with
  | .ok _ => return .ok true
  | .error .notFound => return .ok false
  | .error (.other _) => return .ok true
  | .error fault => return .error fault

def ask : Inquiry α → IO α
  | .done value => return value
  | .read path next => do ask (next (← readFile path))
  | .inspect path next => do ask (next (← isPresent path))

def randomBytes (count : Nat) : IO Bytes := do
  return (← IO.getRandomBytes count.toUSize).toList

def besideName (path : String) : IO String := do
  let random ← randomBytes 8
  return path ++ "." ++ toString (Bytes.ofBigEndian random) ++ ".tmp"

/-- Give a file a content. A whole replacement is written beside the file and then takes its
place. -/
def write (change : FileChange) : IO Unit := do
  let content := ByteArray.mk change.content.toArray
  if change.whole then
    let beside ← besideName change.path
    try
      IO.FS.writeBinFile beside content
      IO.FS.rename beside change.path
    catch reason =>
      try IO.FS.removeFile beside catch _ => pure ()
      throw reason
  else
    IO.FS.writeBinFile change.path content

def perform (context : ActionContext) (action : Action) : IO (Except ActionError Report) := do
  match ← ask (action.attempt context).run with
  | .error reason => return .error reason
  | .ok report =>
      match report.change with
      | none => return .ok report
      | some change =>
          match ← attempt (write change) with
          | .ok _ => return .ok report
          | .error fault => return .error (change.failure fault)

def mentionedNames (text : String) : List String :=
  (text.splitToList fun char => !(char.isAlphanum || char == '_' || char == '.')).filter (· != "")

def setVariables (names : List String) : IO Environment :=
  names.foldlM (fun (environment : Environment) name => do
    match ← IO.getEnv name with
    | some value => return environment.insert name value
    | none => return environment) Dict.empty

def ownVariables : List String := [Environment.catalogVariable, Environment.passwordVariable,
  Environment.newPasswordVariable, Environment.imagesVariable, KdfCost.memoryVariable,
  KdfCost.iterationsVariable, KdfCost.threadsVariable]

/-- The first of some files that is there. -/
def firstFile : List String → IO (Option Bytes)
  | [] => return none
  | path :: rest => do
      match ← readFile path with
      | .ok file => return some file
      | .error _ => firstFile rest

/-- Where an environment file may stand: here or further out. No path has more names than this. -/
def environmentFiles : List String :=
  (List.range 1024).map fun count =>
    String.join (List.replicate count "../") ++ Program.environmentFile

def environment : IO Environment := do
  match ← firstFile environmentFiles with
  | none => setVariables ownVariables
  | some file =>
      let mentioned := mentionedNames ((Bytes.toText? file).getD "")
      return (← setVariables (ownVariables ++ mentioned)).extend file

partial def readAll (input : IO.FS.Stream) (held : ByteArray) : IO ByteArray := do
  let more ← input.read 65536
  if more.isEmpty then return held else readAll input (held ++ more)

def serveKdf : IO UInt32 := do
  let input ← readAll (← IO.getStdin) ByteArray.empty
  IO.println (Codable.toText (KdfRequest.serve input.toList))
  return 0

/-- This program checks its counts. -/
def overflow : Overflow := .stops

def act (environment : Environment) (action : Action) : IO UInt32 := do
  let some fresh := Fresh.ofBytes? (← randomBytes Fresh.length)
    | throw (IO.userError "not enough random bytes")
  let result ← perform (Program.context overflow environment fresh KdfRequest.derive) action
  let ending := Program.Ending.ofAction result
  if let some document := ending.printed then
    IO.println document.renderPretty
  if let .error reason := result then
    IO.eprintln ("Error: " ++ reason.explain ActionError.Cause.message)
  return ending.exit

def run (words : List String) : IO UInt32 := do
  let environment ← environment
  match CommandLine.invocation environment words with
  | .error .help => do
      IO.println helpText
      return 0
  | .error .version => do
      IO.println versionText
      return 0
  | .error .misused => do
      IO.eprintln helpText
      return 2
  | .ok .serveKdf => serveKdf
  | .ok (.act action) => act environment action

end SealedCatalog.Main

def main (words : List String) : IO UInt32 :=
  SealedCatalog.Main.run words
