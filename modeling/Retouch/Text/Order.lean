import Retouch.Text.Basic

/-!
# Order of texts

Texts are ordered by the code points of their characters, the first difference deciding.
-/

namespace Retouch.Text

/-- The texts in ascending order. -/
def sort (texts : List Text) : List Text :=
  texts.mergeSort fun left right => !right.lex left fun c d => c.toNat < d.toNat

end Retouch.Text
