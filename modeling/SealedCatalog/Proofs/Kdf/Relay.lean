import SealedCatalog.Proofs.Kdf.Reply

/-! Outcomes of a child, as its parent hears them. Keys and refusals of the parameters come as they
were reported. Any other error comes as a failure whose reason is the whole message of the error, so
that a failure is announced twice over. No two outcomes are confused. -/

namespace SealedCatalog

/-! ## Errors told again -/

namespace KdfError

/-- An error as a reply reports it. -/
def retold : KdfError → KdfError
  | invalidParameters reason => invalidParameters reason
  | other => failed other.code other.message

theorem message_failed_inj {code : Int32} {first second : String} :
    (failed code first).message = (failed code second).message ↔ first = second := by
  rw [message_failed, message_failed, String.append_right_inj]

theorem message_cancelled_ne (code : Int32) (reason : String) :
    cancelled.message ≠ (failed code reason).message := by
  intro same
  rw [message_failed, String.append_assoc, String.append_assoc] at same
  -- The place of the first letter that is not the same in both.
  have letter := congrArg (fun text => text.toList[15]?) same
  simp only [String.toList_append] at letter
  rw [List.getElem?_append_left (by decide)] at letter
  exact absurd letter (by decide)

theorem retold_injective : Function.Injective retold := by
  intro first second same
  cases first with
  | cancelled =>
      cases second with
      | cancelled => rfl
      | invalidParameters reason => cases same
      | failed code reason =>
          exact absurd (failed.inj same).2 (message_cancelled_ne code reason)
  | invalidParameters reason =>
      cases second with
      | invalidParameters other => exact same
      | cancelled => cases same
      | failed code other => cases same
  | failed code reason =>
      cases second with
      | cancelled => exact absurd (failed.inj same).2.symm (message_cancelled_ne code reason)
      | invalidParameters other => cases same
      | failed otherCode other =>
          obtain ⟨rfl, messages⟩ := failed.inj same
          exact congrArg _ (message_failed_inj.mp messages)

end KdfError

/-! ## Outcomes relayed -/

namespace KdfOutcome

/-- The outcome that is read from the text of the reply to an outcome. -/
def relayed? (outcome : KdfOutcome) : Option KdfOutcome :=
  (Codable.ofPlainBytes? (Bytes.ofText (Codable.toText (KdfReply.ofOutcome outcome)))).map
    KdfReply.outcome

theorem relayed?_eq (outcome : KdfOutcome) :
    outcome.relayed? = some (KdfReply.ofOutcome outcome).outcome := by
  rw [relayed?, KdfReply.ofPlainBytes?_toText, Option.map_some]

theorem outcome_ofOutcome (outcome : KdfOutcome) :
    (KdfReply.ofOutcome outcome).outcome = outcome.mapError KdfError.retold := by
  cases outcome with
  | ok bytes => rfl
  | error error => cases error <;> rfl

theorem mapError_retold_injective :
    Function.Injective fun outcome : KdfOutcome => outcome.mapError KdfError.retold := by
  intro first second same
  cases first <;> cases second
  · exact congrArg _ (KdfError.retold_injective (Except.error.inj same))
  · cases same
  · cases same
  · exact same

/-- Every outcome is relayed, with its error told again: as it was exactly when it is a key or a
refusal of the parameters, and otherwise so that it can be told from every other outcome. -/
theorem relayed?_exactly (outcome : KdfOutcome) :
    outcome.relayed? = some (outcome.mapError KdfError.retold) ∧
      (outcome.relayed? = some outcome ↔ outcome.IsReported) ∧
      ∀ other : KdfOutcome, other.relayed? = outcome.relayed? → other = outcome := by
  refine ⟨?_, ?_, ?_⟩
  · rw [relayed?_eq, outcome_ofOutcome]
  · rw [relayed?_eq, Option.some_inj, KdfReply.outcome_ofOutcome_eq_iff]
  · intro other same
    rw [relayed?_eq, relayed?_eq, outcome_ofOutcome, outcome_ofOutcome] at same
    exact mapError_retold_injective (Option.some.inj same)

/-- The message of a failure becomes its reason. -/
theorem not_relayed_failed :
    relayed? (.error (.failed 7 "oom")) =
        some (.error (.failed 7 "Key derivation failed (7): oom")) ∧
      relayed? (.error (.failed 7 "oom")) ≠ some (.error (.failed 7 "oom")) := by
  rw [relayed?_eq]
  decide

end KdfOutcome

end SealedCatalog
