import SealedCatalog.Catalog.Error
import SealedCatalog.Configuration.Check

/-!
What the program can be asked to do with files, why it may fail, and what it reports. An action
changes one file at most, as its last step.
-/

namespace SealedCatalog

structure Access where
  catalog : String
  password : String
deriving DecidableEq, Inhabited, Repr

inductive Action where
  | describe (catalog : String)
  | list (access : Access) (entry : Option String) (descending : Bool)
  /-- Find the records of which all queries hold, or some of them. -/
  | search (access : Access) (queries : List String) (anySuffices : Bool)
  | listOperators (access : Access)
  | checkConfiguration (file : String)
  | diagnose (access : Access)
  | sealPlain (input output password : String) (force : Bool)
  | addRecord (access : Access) (id file : String) (imageSupplied : Bool)
  | changePassword (access : Access) (newPassword : String)
  | exportImage (access : Access) (directory stem : String) (thumbnail : Bool) (output : String)
deriving DecidableEq, Inhabited, Repr

/-- What a file is given. A whole replacement leaves either the old or the new content, whenever it
is cut short. -/
structure FileChange where
  path : String
  content : Bytes
  whole : Bool
deriving DecidableEq, Inhabited, Repr

inductive ActionError where
  | unreadable (path : String) (fault : FileFault)
  | unreadableCatalog (path : String) (fault : FileFault)
  | unwritable (path : String) (fault : FileFault)
  | unwritableCatalog (path : String) (fault : FileFault)
  | uninspectable (path : String) (fault : FileFault)
  | notJson (path : String)
  | notData (path : String) (reason : DecodeError)
  | alreadyThere (path : String)
  | badConfiguration (problems : List ConfigurationProblem)
  /-- The password is wrong or the file is damaged. -/
  | locked (path : String)
  | unknownEntry (name : String)
  | invalidQuery (command : String)
  | recordExists (id : String)
  | withoutImages (path : String)
  | catalog (reason : CatalogError)
  /-- The program stopped at a count that could not grow. -/
  | stopped
deriving DecidableEq, Repr

namespace ActionError

def ofSealFault : SealFault → ActionError
  | .refused reason => catalog reason
  | .stopped => stopped

def message : ActionError → String
  | unreadable path _ => "Failed to read " ++ path
  | unreadableCatalog path _ => "Failed to read catalog " ++ path
  | unwritable path _ => "Failed to write " ++ path
  | unwritableCatalog path _ => "Failed to write catalog " ++ path
  | uninspectable path _ => "Failed to inspect " ++ path
  | notJson path => path ++ " is not valid JSON"
  | notData path _ => path ++ " is not catalog data"
  | alreadyThere path => path ++ " already exists (use --force to overwrite)"
  | badConfiguration problems =>
      "Invalid entry configuration: " ++
        "; ".intercalate (problems.map ConfigurationProblem.message)
  | locked path => s!"Could not unlock {path}: wrong password or damaged file"
  | unknownEntry name => s!"Unknown entry \"{name}\""
  | invalidQuery command => "Invalid search command: " ++ command
  | recordExists id => s!"Record \"{id}\" already exists"
  | withoutImages path => s!"Catalog {path} does not store images"
  | catalog reason => reason.message
  | stopped => "attempt to add with overflow"

inductive Cause where
  | file (fault : FileFault)
  | json
  | data (reason : DecodeError)
deriving DecidableEq, Repr

def Cause.message : Cause → String
  | file fault => fault.message
  | json => "the text does not parse"
  | data reason => "Decode error: " ++ reason.message

def cause? : ActionError → Option Cause
  | unreadable _ fault => some (.file fault)
  | unreadableCatalog _ fault => some (.file fault)
  | unwritable _ fault => some (.file fault)
  | unwritableCatalog _ fault => some (.file fault)
  | uninspectable _ fault => some (.file fault)
  | notJson _ => some .json
  | notData _ reason => some (.data reason)
  | _ => none

def explain (word : Cause → String) (error : ActionError) : String :=
  match error.cause? with
  | some cause => error.message ++ ": " ++ word cause
  | none => error.message

end ActionError

def FileChange.failure (change : FileChange) (fault : FileFault) : ActionError :=
  if change.whole then .unwritableCatalog change.path fault
  else .unwritable change.path fault

structure Report where
  document : Json
  change : Option FileChange
  /-- Whether what was checked passed the check. -/
  passed : Bool

def Report.found (document : Json) : Report := ⟨document, none, true⟩

def Report.changed (document : Json) (change : FileChange) : Report := ⟨document, some change, true⟩

end SealedCatalog
