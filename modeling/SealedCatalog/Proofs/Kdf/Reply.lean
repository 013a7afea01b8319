import SealedCatalog.Kdf.Reply
import SealedCatalog.Proofs.Codec.Text
import SealedCatalog.Proofs.Marker.Yielding

/-! Derivation in a child process. The request reaches the child as it is, and the reply reaches the
parent as it is, so that the parent gets what the child derived. Only a failure that is no refusal
of the parameters changes on the way: its whole message becomes the reason. -/

namespace SealedCatalog

/-! Values that are read with their markers in place -/

theorem Codable.ofPlainBytes?_toText [Codable α] {value : α}
    (fits : Json.Fits Json.maxDepth (encode value)) :
    ofPlainBytes? (Bytes.ofText (toText value)) = (decode? (encode value) : Option α) := by
  rw [ofPlainBytes?, Bytes.toText?_ofText, Option.bind_some, ofPlainText?, toText,
    Json.read?_render fits.integral, if_pos fits.shallow, Option.bind_some]

theorem Bytes.ofJson?_toJson (data : Bytes) : ofJson? data.toJson = some data := by
  rw [toJson, ofJson?, ofMarked_toMarked]
  rfl

theorem Json.uint32?_ofUInt32 (value : UInt32) : (ofUInt32 value).uint32? = some value :=
  uint32?_eq_some_iff.mpr rfl

theorem Json.uint64?_ofUInt64 (value : UInt64) : (ofUInt64 value).uint64? = some value :=
  yields_uint64 value

theorem Json.int32?_toInt (value : Int32) : (int value.toInt).int32? = some value := by
  have low := value.le_toInt
  have high := value.toInt_lt
  rw [int32?, if_pos, Int32.ofInt_toInt]
  simp only [Nat.pow_eq, Bool.and_eq_true, decide_eq_true_eq]
  omega

theorem Json.fits_toInt (limit : Nat) (value : Int32) : Fits limit (int value.toInt) := by
  have low := value.le_toInt
  have high := value.toInt_lt
  refine ⟨.int ?_, Nat.zero_le _⟩
  simp only [IsStorable, leastInt, greatestInt, Nat.pow_eq]
  omega

/-! Requests -/

namespace KdfRequest

theorem ofJson?_toJson (request : KdfRequest) : ofJson? request.toJson = some request := by
  simp [ofJson?, toJson, Json.fields?, Json.field?, Bytes.ofJson?_toJson, Json.uint32?_ofUInt32,
    Json.uint64?_ofUInt64]

theorem fits_toJson (request : KdfRequest) : Json.Fits 1 request.toJson := by
  simp [toJson, Json.fits_object_iff, Bytes.fits_toJson]

theorem ofPlainBytes?_payload (request : KdfRequest) :
    Codable.ofPlainBytes? request.payload = some request := by
  rw [payload, Codable.ofPlainBytes?_toText (request.fits_toJson.mono (by decide))]
  exact request.ofJson?_toJson

theorem serveWith_payload (hash : KdfRequest → KdfOutcome) (request : KdfRequest) :
    serveWith hash request.payload = .ofOutcome (hash request) := by
  rw [serveWith, ofPlainBytes?_payload]

end KdfRequest

/-! Replies -/

namespace KdfReply

theorem ofJson?_toJson (reply : KdfReply) : ofJson? reply.toJson = some reply := by
  cases reply with
  | key bytes =>
      simp [ofJson?, toJson, tagField, ofTagged?, Json.fields?, Json.field?, Json.string?,
        Bytes.ofJson?_toJson]
  | invalidParameters reason =>
      simp [ofJson?, toJson, tagField, ofTagged?, Json.fields?, Json.field?, Json.string?]
  | failed code reason =>
      simp [ofJson?, toJson, tagField, ofTagged?, Json.fields?, Json.field?, Json.string?,
        Json.int32?_toInt]

theorem fits_toJson (reply : KdfReply) : Json.Fits 1 reply.toJson := by
  cases reply <;> simp [toJson, Json.fits_object_iff, Bytes.fits_toJson, Json.fits_toInt]

theorem ofPlainBytes?_toText (reply : KdfReply) :
    Codable.ofPlainBytes? (Bytes.ofText (Codable.toText reply)) = some reply := by
  rw [Codable.ofPlainBytes?_toText (reply.fits_toJson.mono (by decide))]
  exact reply.ofJson?_toJson

/-- The parent reads the reply of a child that ends well. -/
theorem outcome_ended (reply : KdfReply) :
    (KdfRequest.ChildRun.ended (.code 0) (Bytes.ofText (Codable.toText reply))).outcome =
      reply.outcome := by
  rw [KdfRequest.ChildRun.outcome, reply.ofPlainBytes?_toText]

end KdfReply

/-- A key, or a refusal of the parameters. -/
def KdfOutcome.IsReported (outcome : KdfOutcome) : Prop :=
  ∀ error, outcome = .error error → ∃ reason, error = .invalidParameters reason

theorem KdfError.message_failed (code : Int32) (reason : String) :
    (failed code reason).message =
      "Key derivation failed (" ++ toString code.toInt ++ "): " ++ reason := rfl

theorem KdfError.message_failed_ne (code : Int32) (reason : String) :
    (failed code reason).message ≠ reason := by
  intro same
  have lengths := congrArg String.length same
  simp only [message_failed, String.length_append] at lengths
  have positive : 0 < "): ".length := by decide
  omega

/-- A reply keeps an outcome unless that is a cancellation or a failure. -/
theorem KdfReply.outcome_ofOutcome_eq_iff {outcome : KdfOutcome} :
    (ofOutcome outcome).outcome = outcome ↔ outcome.IsReported := by
  cases outcome with
  | ok bytes => simp [ofOutcome, KdfReply.outcome, KdfOutcome.IsReported]
  | error error =>
      cases error with
      | cancelled => simp [ofOutcome, KdfReply.outcome, KdfOutcome.IsReported]
      | invalidParameters reason => simp [ofOutcome, KdfReply.outcome, KdfOutcome.IsReported]
      | failed code reason =>
          simp [ofOutcome, KdfReply.outcome, KdfOutcome.IsReported, KdfError.code,
            KdfError.message_failed_ne]

namespace KdfRequest

theorem isReported_derive (request : KdfRequest) : request.derive.IsReported := by
  intro error refused
  rw [derive] at refused
  split at refused
  next defect _ =>
    cases refused
    exact ⟨defect.reason, rfl⟩
  · cases refused

theorem outcome_serveChildWith (hash : KdfRequest → KdfOutcome) (request : KdfRequest) :
    (request.serveChildWith hash).outcome = (KdfReply.ofOutcome (hash request)).outcome := by
  rw [serveChildWith, KdfReply.outcome_ended, serveWith_payload]

/-- A child that derives keys as the parent would gets the parent the same outcome. With another
way to derive them this holds of a request exactly when its outcome is a key or a refusal of the
parameters. -/
theorem serveChild_agrees (request : KdfRequest) :
    request.serveChild.outcome = request.derive ∧
      ∀ hash : KdfRequest → KdfOutcome,
        (request.serveChildWith hash).outcome = hash request ↔ (hash request).IsReported := by
  have agrees (hash : KdfRequest → KdfOutcome) :
      (request.serveChildWith hash).outcome = hash request ↔ (hash request).IsReported := by
    rw [outcome_serveChildWith, KdfReply.outcome_ofOutcome_eq_iff]
  exact ⟨(agrees derive).mpr request.isReported_derive, agrees⟩

end KdfRequest

end SealedCatalog
