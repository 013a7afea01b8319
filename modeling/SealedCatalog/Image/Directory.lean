import SealedCatalog.Catalog.Error
import SealedCatalog.Inquiry
import SealedCatalog.Path

/-!
Images in a directory, each a file. A name that might lead out of the directory is refused before
any file is looked at.
-/

namespace SealedCatalog.ImageDirectory

def found : Except FileFault Bytes → Except CatalogError (Option Bytes)
  | .ok blob => .ok (some blob)
  | .error .notFound => .ok none
  | .error fault => .error (.unreadable fault)

/-- The image of a name, if the name is the file name of the path that it spells. -/
def load (directory name : String) : Inquiry (Except CatalogError (Option Bytes)) :=
  if Path.fileName? name = some name then do
    return found (← Inquiry.content (Path.join directory name))
  else
    return .error (.imageNameRefused name)

end SealedCatalog.ImageDirectory
