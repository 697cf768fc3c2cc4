/-!
# Names and safe values

Names that become part of generated CSS are kept to a small alphabet, and values must not be able to end
the declaration that they are put into.

* `isIdentifier` — a non-empty run of ASCII letters, digits, `-` and `_`;
* `breaksOut` — whether a value holds one of the characters that end a declaration or a block.
-/

namespace AtomicCss.Text

/-- Whether a character may stand in an identifier: an ASCII letter or digit, `-` or `_`. -/
def isNameChar (c : Char) : Bool :=
  c.isAlphanum || c == '-' || c == '_'

/-- Whether a text is a non-empty run of ASCII letters, digits, `-` and `_`. -/
def isIdentifier (s : String) : Bool :=
  !s.isEmpty && s.toList.all isNameChar

/-- Whether a character ends a declaration or opens or closes a block. -/
def isDelimiter (c : Char) : Bool :=
  c == ';' || c == '\x7b' || c == '\x7d'

/-- Whether a text holds a character that would end the declaration it is put into. -/
def breaksOut (s : String) : Bool :=
  s.toList.any isDelimiter

/-- No character of an identifier ends a declaration. -/
theorem not_breaksOut_of_isIdentifier {s : String} (h : isIdentifier s) : breaksOut s = false := by
  simp only [isIdentifier, Bool.and_eq_true, List.all_eq_true] at h
  simp only [breaksOut, List.any_eq_false]
  intro c hc hd
  have hn := h.2 c hc
  simp only [isDelimiter, Bool.or_eq_true, beq_iff_eq] at hd
  rcases hd with (rfl | rfl) | rfl <;> exact absurd hn (by decide)

end AtomicCss.Text
