/-!
# Class names in selectors

A class token may hold characters that mean something in a selector. Each of them is escaped by a
backslash; a digit in front is written as its code point in hexadecimal, followed by a space.

* `escape` — a class token as it stands behind the dot of a selector;
* `escapeChars_append` — only the first character is special.
-/

namespace AtomicCss

/-- The characters that are escaped by a backslash. -/
def escapedChars : List Char :=
  ['.', '/', '[', ']', '(', ')', '%', '#', ':', '@', '!', ',', '~', '^', '$', '&', '+', '=', '<', '>',
   '|', '\'', '"', ';', '\x7b', '\x7d', '\\', '*', '?']

/-- A character as it stands in a selector, behind the first. -/
def escapeChar (c : Char) : List Char :=
  if escapedChars.contains c then ['\\', c] else [c]

/-- The first character as it stands in a selector: a digit is its code point. The hexadecimal code of a
decimal digit is `3` and the digit itself. -/
def escapeFirst (c : Char) : List Char :=
  if c.isDigit then ['\\', '3', c, ' '] else escapeChar c

/-- The characters of a class token as they stand in a selector. -/
def escapeChars : List Char → List Char
  | [] => []
  | c :: cs => escapeFirst c ++ cs.flatMap escapeChar

/-- A class token as it stands in a selector, behind the dot. -/
def escape (token : String) : String :=
  String.ofList (escapeChars token.toList)

/-- Only the first character is special, so behind it texts are escaped part by part. -/
theorem escapeChars_append {s : List Char} (t : List Char) (h : s ≠ []) :
    escapeChars (s ++ t) = escapeChars s ++ t.flatMap escapeChar := by
  cases s with
  | nil => exact absurd rfl h
  | cons c cs => simp [escapeChars]

end AtomicCss
