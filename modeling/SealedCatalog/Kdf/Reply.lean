import SealedCatalog.Kdf

/-!
Derivation in a child process: the child reads one request as JSON and writes one reply. What the
parent makes of the child is an outcome like that of a derivation of its own.
-/

namespace SealedCatalog

inductive KdfReply where
  | key (key : Bytes)
  | invalidParameters (reason : String)
  | failed (code : Int32) (reason : String)
deriving DecidableEq, Inhabited, Repr

namespace KdfReply

/-- The reply that reports an outcome. A failure is reported by its whole message. -/
def ofOutcome : KdfOutcome → KdfReply
  | .ok bytes => key bytes
  | .error (.invalidParameters reason) => invalidParameters reason
  | .error other => failed other.code other.message

def outcome : KdfReply → KdfOutcome
  | key bytes => .ok bytes
  | invalidParameters reason => .error (.invalidParameters reason)
  | failed code reason => .error (.failed code reason)

def tagField : String := "status"

def toJson : KdfReply → Json
  | key bytes => .object [(tagField, .string "key"), ("key", bytes.toJson)]
  | invalidParameters reason =>
      .object [(tagField, .string "invalid_parameters"), ("message", .string reason)]
  | failed code reason =>
      .object [(tagField, .string "failed"), ("code", .int code.toInt), ("message", .string reason)]

def ofTagged? (name : String) (contents : Json) : Option KdfReply :=
  match name with
  | "key" => do
      let [bytes] ← contents.fields? [["key"]] | none
      some (key (← bytes.bind Bytes.ofJson?))
  | "invalid_parameters" => do
      let [reason] ← contents.fields? [["message"]] | none
      some (invalidParameters (← reason.bind Json.string?))
  | "failed" => do
      let [code, reason] ← contents.fields? [["code"], ["message"]] | none
      some (failed (← code.bind Json.int32?) (← reason.bind Json.string?))
  | _ => none

/-- A reply is an object with its name among the fields, or an array headed by its name. -/
def ofJson? : Json → Option KdfReply
  | .object fields => do
      let name ← (← Json.field? [tagField] fields).bind Json.string?
      ofTagged? name (.object (fields.filter fun field => field.1 != tagField))
  | .array (.string name :: contents) => ofTagged? name (.array contents)
  | _ => none

instance : Codable KdfReply := ⟨toJson, ofJson?⟩

end KdfReply

namespace KdfRequest

/-- The reply of a child that derives keys with the given function to what it reads. -/
def serveWith (hash : KdfRequest → KdfOutcome) (input : Bytes) : KdfReply :=
  match (Codable.ofPlainBytes? input : Option KdfRequest) with
  | some request => .ofOutcome (hash request)
  | none => .failed KdfError.failureCode "unreadable request"

def serve (input : Bytes) : KdfReply :=
  serveWith derive input

inductive ExitStatus where
  | code (code : Nat)
  | signal (number : Nat) (name : String)
deriving DecidableEq, Repr

def ExitStatus.describe : ExitStatus → String
  | code number => s!"exit status: {number}"
  | signal number name => s!"signal: {number} ({name})"

inductive ChildRun where
  | notStarted
  | pipeBroken
  | ended (status : ExitStatus) (output : Bytes)
deriving DecidableEq, Inhabited, Repr

/-- The outcome that the run of a child comes to. Only the output of a child that ended well is
read. -/
def ChildRun.outcome : ChildRun → KdfOutcome
  | notStarted => .error (.ofWorker "cannot start key derivation worker")
  | pipeBroken => .error (.ofWorker "worker I/O failed")
  | ended (.code 0) output =>
      match (Codable.ofPlainBytes? output : Option KdfReply) with
      | some reply => reply.outcome
      | none => .error (.ofWorker "unreadable worker reply")
  | ended status _ => .error (.ofWorker ("worker exited with " ++ status.describe))

def payload (request : KdfRequest) : Bytes :=
  Bytes.ofText (Codable.toText request)

/-- A child that is given the request and ends well after its reply. -/
def serveChildWith (hash : KdfRequest → KdfOutcome) (request : KdfRequest) : ChildRun :=
  .ended (.code 0) (Bytes.ofText (Codable.toText (serveWith hash request.payload)))

def serveChild (request : KdfRequest) : ChildRun :=
  request.serveChildWith derive

end KdfRequest

end SealedCatalog
