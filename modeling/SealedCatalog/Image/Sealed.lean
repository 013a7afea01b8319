import SealedCatalog.Catalog.Error
import SealedCatalog.Image

/-!
Sealed images: the header in clear, then a nonce and the encrypted rest.
-/

namespace SealedCatalog.ImageFormat

def openImage (format : ImageFormat) (key : CipherKey) (blob : Bytes) : Except CatalogError Bytes :=
  if blob.length < format.headerLength + nonceLength then
    .error (.blobTooShort format.mime blob.length)
  else
    let header := blob.take format.headerLength
    let rest := blob.drop format.headerLength
    match Nonce.ofBytes? (rest.take nonceLength) with
    | none => .error (.blobTooShort format.mime blob.length)
    | some nonce => do
        let body ← (key.decrypt nonce (rest.drop nonceLength)).mapError .cipher
        return header ++ body

def sealImage (format : ImageFormat) (key : CipherKey) (nonce : Nonce) (image : Bytes) :
    Except CatalogError Bytes :=
  if image.length < format.headerLength then
    .error (.imageTooShort format.mime format.headerLength)
  else do
    let body ← (key.encrypt nonce (image.drop format.headerLength)).mapError .cipher
    return image.take format.headerLength ++ nonce.bytes ++ body

end SealedCatalog.ImageFormat
