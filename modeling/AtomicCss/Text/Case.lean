/-!
# Case

Only the letters of ASCII have a case here.

* `asciiLower` — the text with the capitals made small.
-/

namespace AtomicCss.Text

/-- A text with the ASCII capitals made small. -/
def asciiLower (s : String) : String :=
  String.ofList (s.toList.map Char.toLower)

end AtomicCss.Text
