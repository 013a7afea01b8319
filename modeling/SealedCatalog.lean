import SealedCatalog.Draft.Codec
import SealedCatalog.Hex
import SealedCatalog.Kdf.Ends
import SealedCatalog.Main
import SealedCatalog.Query.Codec
import SealedCatalog.Proofs.Catalog.KeyChain
import SealedCatalog.Proofs.Catalog.Reopening
import SealedCatalog.Proofs.Query.Grammar
import SealedCatalog.Proofs.Query.Enclosing
import SealedCatalog.Proofs.SortKey.Order
import SealedCatalog.Proofs.SortKey.Emptiness
import SealedCatalog.Proofs.Query.Comparison
import SealedCatalog.Proofs.SortKey.Numbered
import SealedCatalog.Proofs.Query.Numeric
import SealedCatalog.Proofs.Query.Growth
import SealedCatalog.Proofs.Kdf.Cancellation
import SealedCatalog.Proofs.Catalog.Consistency
import SealedCatalog.Proofs.Json.Lookup
import SealedCatalog.Proofs.Configuration.Form
import SealedCatalog.Proofs.Configuration.Sanitizing
import SealedCatalog.Proofs.Configuration.Document
import SealedCatalog.Proofs.Query.Combination
import SealedCatalog.Proofs.Catalog.Unlocking
import SealedCatalog.Proofs.Catalog.Refusal
import SealedCatalog.Proofs.Catalog.Acceptance
import SealedCatalog.Proofs.Catalog.Diagnosis
import SealedCatalog.Proofs.Catalog.WriteCount
import SealedCatalog.Proofs.Codec.Rereading
import SealedCatalog.Proofs.FileTree
import SealedCatalog.Proofs.Import.Texts
import SealedCatalog.Proofs.Action.Attempt
import SealedCatalog.Proofs.Action.Writes
import SealedCatalog.Proofs.Calendar.Timestamp
import SealedCatalog.Proofs.SortKey.AsciiRun
import SealedCatalog.Proofs.SortKey.Words
import SealedCatalog.Proofs.Draft.Stored
import SealedCatalog.Proofs.Draft.Validity
import SealedCatalog.Proofs.Draft.Editing
import SealedCatalog.Proofs.Configuration.Filling
import SealedCatalog.Proofs.Query.Checked
import SealedCatalog.Proofs.Import.Registration
import SealedCatalog.Proofs.Image.Sealed
import SealedCatalog.Proofs.Image.Directory
import SealedCatalog.Proofs.Kdf.Relay
import SealedCatalog.Proofs.TagPool.Registration
import SealedCatalog.Proofs.TagPool.Candidate
import SealedCatalog.Proofs.Marker.Revived
import SealedCatalog.Proofs.Codec.Spelling
import SealedCatalog.Proofs.Base64.Uniqueness
