import SealedCatalog.Text.Blank
import SealedCatalog.Text.Unprinted

/-!
Texts between quotes, as messages show them: what cannot be printed is written as an escape.
-/

namespace SealedCatalog.Text

/-- Whether a character is shown by its code. The plain space is the only blank that is not. -/
def isShownByCode (char : Char) : Bool :=
  (isBlank char && char != ' ') || isUnprinted char

def quoteChar (char : Char) : List Char :=
  if char = '"' || char = '\\' then ['\\', char]
  else if char = '\n' then ['\\', 'n']
  else if char = '\r' then ['\\', 'r']
  else if char = '\t' then ['\\', 't']
  else if char = '\x00' then ['\\', '0']
  else if isShownByCode char then
    ['\\', 'u', '\x7b'] ++ Nat.toDigits 16 char.toNat ++ ['\x7d']
  else [char]

def quoted (text : String) : String :=
  String.ofList ('"' :: (text.toList.flatMap quoteChar ++ ['"']))

end SealedCatalog.Text
