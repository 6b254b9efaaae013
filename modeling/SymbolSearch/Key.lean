import SymbolSearch.Text.Blank
import SymbolSearch.Text.LowerCase

/-!
This module contains the normal form under which labels are filed and queries are looked up.
-/

namespace SymbolSearch

/--
The key of a text: squeezed and in lower case. Two texts that differ only in case or in the blanks
between and around their words have the same key.
-/
def key (text : String) : String :=
  .ofList ((Text.squeeze text.toList).flatMap Text.lower)

end SymbolSearch
