import SealedCatalog.Dict

/-!
Variables that stand in for what a command line leaves out.
-/

namespace SealedCatalog

abbrev Environment := Dict String

namespace Environment

def catalogVariable : String := "KURA_CATALOG"

def passwordVariable : String := "KURA_PASSWORD"

def newPasswordVariable : String := "KURA_NEW_PASSWORD"

def imagesVariable : String := "KURA_IMAGES"

def setDefault (environment : Environment) (name value : String) : Environment :=
  if environment.contains name then environment else environment.insert name value

end Environment

end SealedCatalog
