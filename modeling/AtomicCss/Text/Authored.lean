/-!
# Authored text in class names

A class name cannot hold a space, so authored text in brackets writes an underscore for it. An underscore
that is meant stands behind a backslash.

* `decodeSpaces` — the text that is meant;
* `decodeChars_cons` — a character other than underscore and backslash stands for itself.
-/

namespace AtomicCss.Text

/-- Authored characters with every underscore made a space; a backslash in front keeps the underscore and
goes itself. -/
def decodeChars : List Char → List Char
  | [] => []
  | '\\' :: '_' :: cs => '_' :: decodeChars cs
  | c :: cs => (if c = '_' then ' ' else c) :: decodeChars cs

/-- Authored text with every underscore made a space; a backslash in front keeps the underscore and goes
itself. -/
def decodeSpaces (s : String) : String :=
  String.ofList (decodeChars s.toList)

/-- A character other than underscore and backslash stands for itself. -/
theorem decodeChars_cons {c : Char} (cs : List Char) (hu : c ≠ '_') (hb : c ≠ '\\') :
    decodeChars (c :: cs) = c :: decodeChars cs := by
  rw [decodeChars.eq_def]
  split
  · contradiction
  · rename_i h
    cases h
    contradiction
  · rename_i h
    cases h
    rw [if_neg hu]

end AtomicCss.Text
