import SealedCatalog.Entry
import SealedCatalog.Record
import SealedCatalog.TagPool
import SealedCatalog.Text.Occurrence

/-!
Matching the value of an entry against a text: a string by itself, tags by any of their texts, and
a rating by its comment.
-/

namespace SealedCatalog

inductive TextMatch where
  | part
  | whole
deriving DecidableEq, Inhabited, Repr

def TextMatch.holds (how : TextMatch) (candidate text : String) : Bool :=
  match how with
  | part => Text.contains candidate text
  | whole => candidate == text

/-- Whether a value of an entry matches a text. An index that no tag has matches nothing, and so
does a value of another type than the entry's. -/
def EntryValue.matchesText (value : EntryValue) (entry : Entry) (pool : TagPool)
    (how : TextMatch) (text : String) : Bool :=
  match entry.kind, value with
  | .string _, string candidate => how.holds candidate text
  | .tag _, tags indices =>
      indices.any fun index => (pool.resolve entry.name index).any (how.holds · text)
  | .rating _ _, rating _ comment => comment.any (how.holds · text)
  | _, _ => false

end SealedCatalog
