import SealedCatalog.Proofs.Bytes
import SealedCatalog.Proofs.Json.Reading
import SealedCatalog.Proofs.Marker.Settling

/-! Values from texts: when the text of a value gives that value back, and what a value from a text
was read from. -/

namespace SealedCatalog.Codable

variable [Codable α]

private theorem ofRevived_eq_ok_iff {document : Json} {value : α} :
    ofRevived document = .ok value ↔ decode? document = some value := by
  rw [ofRevived]
  cases (decode? document : Option α) <;> simp

/-- All that counts of a text is the document that it stands for. -/
theorem ofText_eq_ok_iff {text : String} {document : Json} {value : α}
    (parsed : Json.parse? text = some document.canonical) :
    ofText text = .ok value ↔ Json.Yields document decode? value := by
  rw [ofText, parsed, Json.Yields, Json.settle]
  cases revived : document.canonical.revive with
  | error reason => simp [revived, bind, Except.bind, Except.toOption]
  | ok settled => simpa [revived, bind, Except.bind, Except.toOption] using ofRevived_eq_ok_iff

/-- The text of a value gives it back if the document is not too deep and yields the value. -/
theorem ofText_toText_iff {value : α} (integral : (encode value).IsIntegral) :
    ofText (toText value) = .ok value ↔
      (encode value).depth ≤ Json.maxDepth ∧ Json.Yields (encode value) decode? value := by
  have parsed := Json.parse?_render integral
  by_cases shallow : (encode value).depth ≤ Json.maxDepth
  · rw [if_pos shallow] at parsed
    rw [and_iff_right shallow]
    exact ofText_eq_ok_iff parsed
  · rw [if_neg shallow] at parsed
    simp [ofText, toText, parsed, shallow]

theorem ofBytes_ofText (text : String) : (ofBytes (Bytes.ofText text) : Except DecodeError α) =
    ofText text := by
  rw [ofBytes, Bytes.toText?_ofText]

/-- A value from a text is read from what the document of the text becomes by revival. -/
theorem exists_revive_of_ofText {text : String} {value : α} (found : ofText text = .ok value) :
    ∃ document revived : Json, Json.parse? text = some document ∧
      document.revive = .ok revived ∧ decode? revived = some value := by
  rw [ofText] at found
  cases parsed : Json.parse? text with
  | none => simp [parsed] at found
  | some document =>
      cases revived : document.revive with
      | error reason => simp [parsed, revived, bind, Except.bind] at found
      | ok settled =>
          simp only [parsed, revived, bind, Except.bind] at found
          exact ⟨document, settled, rfl, revived, ofRevived_eq_ok_iff.mp found⟩

/-- A value from a text is read from a document without markers. -/
theorem exists_isUnmarked_of_ofText {text : String} {value : α} (found : ofText text = .ok value) :
    ∃ document : Json, document.IsUnmarked ∧ decode? document = some value := by
  rcases exists_revive_of_ofText found with ⟨_, revived, _, settled, decoded⟩
  exact ⟨revived, Json.isUnmarked_of_revive settled, decoded⟩

end SealedCatalog.Codable
