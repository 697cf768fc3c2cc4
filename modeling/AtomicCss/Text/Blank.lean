/-!
# Blank characters

Class lists, trimmed values and attribute syntax are all cut at *blank* characters: the twenty-five
code points with the Unicode property `White_Space`. The table below lists them as ranges.

* `isBlank` — the test;
* `words` — the maximal runs of characters that are not blank, in order;
* `trimStart`, `trimEnd`, `trim` — the text without its blank ends.
-/

namespace AtomicCss.Text

/-- The code points with the Unicode property `White_Space`, as closed ranges in ascending order. -/
def blankRanges : List (Nat × Nat) :=
  [(0x0009, 0x000D), (0x0020, 0x0020), (0x0085, 0x0085), (0x00A0, 0x00A0), (0x1680, 0x1680),
   (0x2000, 0x200A), (0x2028, 0x2029), (0x202F, 0x202F), (0x205F, 0x205F), (0x3000, 0x3000)]

/-- Whether a character is blank, that is, has the Unicode property `White_Space`. -/
def isBlank (c : Char) : Bool :=
  blankRanges.any fun (lo, hi) => lo ≤ c.toNat && c.toNat ≤ hi

/-- The non-empty pieces of a text between characters that satisfy `p`. -/
def fields (p : Char → Bool) (s : String) : List String :=
  ((s.toList.splitOnP p).filter (!·.isEmpty)).map String.ofList

/-- The maximal runs of characters that are not blank, in order. -/
def words (s : String) : List String :=
  fields isBlank s

/-- The text without its leading blank characters. -/
def trimStart (s : String) : String :=
  String.ofList (s.toList.dropWhile isBlank)

/-- The text without its trailing blank characters. -/
def trimEnd (s : String) : String :=
  String.ofList (s.toList.reverse.dropWhile isBlank).reverse

/-- The text without its leading and trailing blank characters. -/
def trim (s : String) : String :=
  trimEnd (trimStart s)

/-- Whether a text has no character that is not blank. -/
def isAllBlank (s : String) : Bool :=
  s.toList.all isBlank

/-! ## Small facts -/

/-- Every character that core calls whitespace is blank. -/
theorem isBlank_of_isWhitespace {c : Char} (h : c.isWhitespace) : isBlank c := by
  simp only [Char.isWhitespace, Bool.or_eq_true, decide_eq_true_eq] at h
  rcases h with ((rfl | rfl) | rfl) | rfl <;> decide

@[simp] theorem isAllBlank_append (s t : String) : isAllBlank (s ++ t) = (isAllBlank s && isAllBlank t) := by
  rw [isAllBlank, String.toList_append, List.all_append]
  rfl

end AtomicCss.Text
