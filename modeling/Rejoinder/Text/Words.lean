import Rejoinder.Text.Basic
import Rejoinder.Text.Blank

/-!
# Words

A word is a longest run of characters without a blank. Splitting into words forgets how many
blanks stood between them, and trimming forgets the blanks at both ends.
-/

set_option autoImplicit false

namespace Rejoinder.Text

/-- The words of a text, in order. -/
def words (t : Text) : List Text := (fields isBlank t).filter (!·.isEmpty)

/-- The text without the blanks at its two ends. -/
def trim (t : Text) : Text := ((t.dropWhile isBlank).reverse.dropWhile isBlank).reverse

end Rejoinder.Text
