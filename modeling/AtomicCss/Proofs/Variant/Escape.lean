import AtomicCss.Color.Family
import AtomicCss.Selector
import Mathlib.Data.List.Basic

/-!
# Reading class names back

A class name stands in a selector with some of its characters escaped, in one of two ways: behind a
backslash, or as a code point in hexadecimal that a blank may end. The second form takes as many digits as
it finds, up to six, so it could run into the text behind it. This module reads the names of selectors by
the rule of CSS and says that escaping loses nothing: every class token is read back from its selector, and
so no two tokens share one.

## The architecture

* **`Spelling`**, **`spellings`** — the characters of a name, each with the way in which it is written.
* **`unescape`** — the characters that are meant.
* **`spellings_escapeChars`** — how the characters of an escaped token are written.
* **`class_selectors_name_their_token`** — a token is read back, and its class selector is its own.
-/

namespace AtomicCss

/-! ## The rule of CSS -/

/-- A character of a name as it is written in a selector. -/
inductive Spelling where
  /-- The character itself. -/
  | plain (c : Char)
  /-- The character behind a backslash. -/
  | escaped (c : Char)
  /-- A backslash and the code point in hexadecimal, with the blank that ends it if there is one. -/
  | coded (digits : List Char) (blank : Option Char)
  deriving DecidableEq, Repr, Inhabited

/-- Whether a character is white space in CSS. -/
def isCssBlank (c : Char) : Bool :=
  [' ', '\t', '\n', '\r', '\x0c'].contains c

def hexDigitValue (c : Char) : Nat :=
  if c.isDigit then c.toNat - '0'.toNat else c.toLower.toNat - 'a'.toNat + 10

/-- The character of a code point in hexadecimal. Zero, and a number that is no character, is the
replacement character. -/
def codedChar (digits : List Char) : Char :=
  let n := digits.foldl (fun n c => 16 * n + hexDigitValue c) 0
  if n ≠ 0 ∧ n.isValidChar then Char.ofNat n else '\ufffd'

namespace Spelling

/-- The character that is meant. -/
def char : Spelling → Char
  | plain c => c
  | escaped c => c
  | coded digits _ => codedChar digits

/-- The characters that are written. -/
def text : Spelling → List Char
  | plain c => [c]
  | escaped c => ['\\', c]
  | coded digits blank => '\\' :: digits ++ blank.toList

end Spelling

/-- A blank in front of a text, if there is one, and the rest. -/
def splitBlank : List Char → Option Char × List Char
  | [] => (none, [])
  | c :: cs => if isCssBlank c then (some c, cs) else (none, c :: cs)

/-- The spelling that begins with a character, and what follows it: behind a backslash one to six
hexadecimal digits and a blank, or else a single character. A backslash at the very end is itself. -/
def spelling (c : Char) (cs : List Char) : Spelling × List Char :=
  if c ≠ '\\' then (.plain c, cs)
  else
    let digits := (cs.take 6).takeWhile isHexDigit
    if digits ≠ [] then
      let (blank, rest) := splitBlank (cs.drop digits.length)
      (.coded digits blank, rest)
    else
      match cs with
      | [] => (.plain c, [])
      | d :: ds => (.escaped d, ds)

theorem splitBlank_eq (cs : List Char) : (splitBlank cs).1.toList ++ (splitBlank cs).2 = cs := by
  cases cs with
  | nil => rfl
  | cons c cs =>
    rw [splitBlank]
    split <;> rfl

/-- A spelling and what follows it are the whole text. -/
theorem text_spelling (c : Char) (cs : List Char) :
    (spelling c cs).1.text ++ (spelling c cs).2 = c :: cs := by
  unfold spelling
  split
  · rfl
  · rename_i hc
    obtain rfl : c = '\\' := by simpa using hc
    dsimp only
    split
    · have hdigits : (cs.take 6).takeWhile isHexDigit <+: cs :=
        (List.takeWhile_prefix _).trans (List.take_prefix 6 cs)
      show '\\' :: (_ ++ _) ++ _ = _
      rw [List.cons_append, List.append_assoc, splitBlank_eq, List.prefix_iff_eq_append.1 hdigits]
    · cases cs <;> rfl

/-- What follows a spelling is shorter than the text. -/
theorem length_spelling (c : Char) (cs : List Char) :
    (spelling c cs).2.length < (c :: cs).length := by
  have htext : 0 < (spelling c cs).1.text.length := by
    cases (spelling c cs).1 <;> simp [Spelling.text]
  have hlength := congrArg List.length (text_spelling c cs)
  rw [List.length_append] at hlength
  omega

/-- The spellings that a text consists of. -/
def spellings : List Char → List Spelling
  | [] => []
  | c :: cs => (spelling c cs).1 :: spellings (spelling c cs).2
termination_by cs => cs.length
decreasing_by exact length_spelling c cs

/-- The text that the name in a selector stands for. -/
def unescape (s : String) : String :=
  String.ofList ((spellings s.toList).map Spelling.char)

/-! ## Escaped names -/

/-- How a character behind the first is written. -/
def spell (c : Char) : Spelling :=
  if escapedChars.contains c then .escaped c else .plain c

/-- How the first character is written. -/
def spellFirst (c : Char) : Spelling :=
  if c.isDigit then .coded ['3', c] (some ' ') else spell c

/-- How the characters of a token are written. -/
def spellAll : List Char → List Spelling
  | [] => []
  | c :: cs => spellFirst c :: cs.map spell

theorem spellings_cons (c : Char) (cs : List Char) :
    spellings (c :: cs) = (spelling c cs).1 :: spellings (spelling c cs).2 := by
  rw [spellings]

/-- No character that is escaped by a backslash begins a code point. -/
theorem isHexDigit_of_escaped {c : Char} (h : c ∈ escapedChars) : isHexDigit c = false := by
  have hnone : (escapedChars.all fun c => !isHexDigit c) = true := by decide
  simpa using List.all_eq_true.1 hnone c h

/-- An escaped character is read as one spelling, whatever follows. -/
theorem spellings_escapeChar (c : Char) (cs : List Char) :
    spellings (escapeChar c ++ cs) = spell c :: spellings cs := by
  unfold escapeChar spell
  split
  · rename_i hc
    have hdigit := isHexDigit_of_escaped (List.contains_iff_mem.1 hc)
    have hspelling : spelling '\\' (c :: cs) = (.escaped c, cs) := by
      simp [spelling, hdigit]
    rw [List.cons_append, List.cons_append, List.nil_append, spellings_cons, hspelling]
  · rename_i hc
    -- the backslash itself is among the escaped characters
    have hne : c ≠ '\\' := by
      rintro rfl
      exact hc (by decide)
    have hspelling : spelling c cs = (.plain c, cs) := by
      simp [spelling, hne]
    rw [List.cons_append, List.nil_append, spellings_cons, hspelling]

theorem isHexDigit_of_isDigit {c : Char} (h : c.isDigit = true) : isHexDigit c = true := by
  rw [isHexDigit, h]
  rfl

/-- The blank behind a coded digit ends it, so that digits and blanks that follow are left alone. -/
theorem spellings_escapeFirst (c : Char) (cs : List Char) :
    spellings (escapeFirst c ++ cs) = spellFirst c :: spellings cs := by
  unfold escapeFirst spellFirst
  split
  · rename_i hc
    have hthree : isHexDigit '3' = true := by decide
    have hspace : isHexDigit ' ' = false := by decide
    have hblank : splitBlank (' ' :: cs) = (some ' ', cs) := rfl
    have hspelling : spelling '\\' ('3' :: c :: ' ' :: cs) = (.coded ['3', c] (some ' '), cs) := by
      simp [spelling, hthree, hspace, isHexDigit_of_isDigit hc, hblank]
    show spellings ('\\' :: '3' :: c :: ' ' :: cs) = _
    rw [spellings_cons, hspelling]
  · exact spellings_escapeChar c cs

/-- **Every character of an escaped token is read as one spelling.** Induction on the characters behind the
first: each of them is read without a look at the others. -/
theorem spellings_escapeChars (cs : List Char) : spellings (escapeChars cs) = spellAll cs := by
  have hrest (cs : List Char) : spellings (cs.flatMap escapeChar) = cs.map spell := by
    induction cs with
    | nil =>
      rw [List.flatMap_nil, spellings]
      rfl
    | cons c cs ih => rw [List.flatMap_cons, spellings_escapeChar, ih, List.map_cons]
  cases cs with
  | nil =>
    rw [escapeChars, spellings]
    rfl
  | cons c cs => rw [escapeChars, spellings_escapeFirst, hrest, spellAll]

/-! ## What is meant -/

theorem char_spell (c : Char) : (spell c).char = c := by
  unfold spell
  split <;> rfl

/-- A decimal digit is the character whose code is `3` and the digit. -/
theorem codedChar_digit {c : Char} (h : c.isDigit = true) : codedChar ['3', c] = c := by
  have hbounds : 48 ≤ c.toNat ∧ c.toNat ≤ 57 := Char.isDigit_iff_toNat.1 h
  have hvalue : ['3', c].foldl (fun n c => 16 * n + hexDigitValue c) 0 = c.toNat := by
    have hthree : hexDigitValue '3' = 3 := by decide
    have hdigit : hexDigitValue c = c.toNat - 48 := by
      rw [hexDigitValue, if_pos h]
      rfl
    rw [List.foldl_cons, List.foldl_cons, List.foldl_nil, hthree, hdigit]
    omega
  have hvalid : c.toNat.isValidChar := c.valid
  unfold codedChar
  rw [hvalue]
  dsimp only
  rw [if_pos ⟨by omega, hvalid⟩, Char.ofNat_toNat]

theorem char_spellFirst (c : Char) : (spellFirst c).char = c := by
  unfold spellFirst
  split
  · rename_i hc
    exact codedChar_digit hc
  · exact char_spell c

theorem map_char_spellAll (cs : List Char) : (spellAll cs).map Spelling.char = cs := by
  cases cs with
  | nil => rfl
  | cons c cs =>
    rw [spellAll, List.map_cons, List.map_map, char_spellFirst]
    simp [Function.comp_def, char_spell]

theorem unescape_escape (token : String) : unescape (escape token) = token := by
  rw [unescape, escape, String.toList_ofList, spellings_escapeChars, map_char_spellAll, String.ofList_toList]

/-- **A class selector names its token.** Every token is read back from its escaped form, and two tokens
have the same class selector only if they are the same token. -/
theorem class_selectors_name_their_token :
    (∀ token : String, unescape (escape token) = token) ∧
    ∀ token token' : String,
      (Draft.ofToken token).subject = (Draft.ofToken token').subject ↔ token = token' := by
  have hclass (token : String) : (Draft.ofToken token).subject = "." ++ escape token := by
    rw [Draft.subject, Draft.ofToken, String.empty_append]
  refine ⟨unescape_escape, fun token token' => ⟨fun h => ?_, fun h => by rw [h]⟩⟩
  rw [hclass, hclass] at h
  have hescape : escape token = escape token' := (String.append_right_inj ".").1 h
  calc token = unescape (escape token) := (unescape_escape token).symm
    _ = unescape (escape token') := by rw [hescape]
    _ = token' := unescape_escape token'

/-- The blank keeps the coded digit from running into the letter behind it, which is a hexadecimal digit. -/
example : escape "1a:b" = "\\31 a\\:b" := by decide

end AtomicCss
