import SealedCatalog.Cipher
import SealedCatalog.Import
import SealedCatalog.Inquiry
import SealedCatalog.Kdf
import SealedCatalog.Text.Quoted

/-!
Why a catalog cannot be opened, changed or asked for an image.
-/

namespace SealedCatalog

inductive CatalogError where
  | malformed (reason : DecodeError)
  | envelopeNotText
  | cipher (reason : CipherError)
  | derivation (reason : KdfError)
  | notImported (reason : ImportError)
  | blobTooShort (mime : String) (length : Nat)
  | imageTooShort (mime : String) (header : Nat)
  | noImageSupport
  | imageMissing (name : String)
  /-- The name may lead out of the directory of the images. -/
  | imageNameRefused (name : String)
  | unreadable (fault : FileFault)
deriving DecidableEq, Repr

namespace CatalogError

def message : CatalogError → String
  | malformed reason => "Parse failed: Decode error: " ++ reason.message
  | envelopeNotText => "Parse failed: envelope is not UTF-8"
  | cipher reason => reason.message
  | derivation reason => reason.message
  | notImported reason => reason.message
  | blobTooShort mime length => s!"Invalid format: {mime} image blob too short: {length} bytes"
  | imageTooShort mime header =>
      s!"Invalid format: {mime} image shorter than its {header}-byte header"
  | noImageSupport => "Image unavailable: catalog has no image support"
  | imageMissing name => "Image unavailable: " ++ name
  | imageNameRefused name => "Image unavailable: refusing image name " ++ Text.quoted name
  | unreadable fault => "IO error: " ++ fault.message

/-- Whether a wrong password, or damage, may be the reason. -/
def isUnauthentic : CatalogError → Bool
  | cipher .unauthentic => true
  | _ => false

end CatalogError

/-- Why nothing was sealed. -/
inductive SealFault where
  | refused (reason : CatalogError)
  /-- The count of the writes could not grow, and the program stopped. -/
  | stopped
deriving DecidableEq, Repr

end SealedCatalog
