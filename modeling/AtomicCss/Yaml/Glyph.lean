/-!
# The characters of a YAML document

A document is read as a list of *glyphs*: characters with the place where they stand. Indentation is a
matter of columns, and whether a key may still be followed by its colon a matter of lines and offsets,
so every decision of the reader can be taken from the glyph at hand.

Line breaks are unified here: CR LF, CR, LF and NEL are one `'\n'`, while LS and PS stay as they are.
Columns are counted in characters and offsets in octets. A byte order mark is a character like any other
and takes a column.

* `Glyph.ofText?` — the glyphs of a text, unless it holds a character that YAML forbids;
* `isBreak`, `isSpace`, `isWhite`, `endsWord` — the classes that the reader distinguishes.
-/

namespace AtomicCss.Yaml

/-- A character and the place where it stands in its document. -/
structure Glyph where
  /-- The character; all forms of line break but LS and PS are `'\n'`. -/
  char : Char
  line : Nat
  column : Nat
  /-- The number of octets in front, in UTF-8. -/
  offset : Nat
  deriving DecidableEq, Repr, Inhabited

/-- Whether YAML allows a character in a document: tab, line breaks, and printable characters. -/
def isAllowed (c : Char) : Bool :=
  let n := c.toNat
  n == 0x09 || n == 0x0A || n == 0x0D || (0x20 ≤ n && n ≤ 0x7E) || n == 0x85 ||
    (0xA0 ≤ n && n ≤ 0xD7FF) || (0xE000 ≤ n && n ≤ 0xFFFD) || 0x10000 ≤ n

def nextLine : Char := '\u0085'

def lineSeparator : Char := '\u2028'

def paragraphSeparator : Char := '\u2029'

def byteOrderMark : Char := '\ufeff'

/-- Whether a glyph is a line break, breaks being unified. -/
def isBreak (g : Glyph) : Bool :=
  g.char == '\n' || g.char == lineSeparator || g.char == paragraphSeparator

/-- Whether a glyph is a space or a tab. -/
def isSpace (g : Glyph) : Bool :=
  g.char == ' ' || g.char == '\t'

/-- Whether a glyph is a space, a tab or a line break. -/
def isWhite (g : Glyph) : Bool :=
  isSpace g || isBreak g

/-- Whether what follows ends a word: white space or the end of the document. -/
def endsWord : List Glyph → Bool
  | [] => true
  | g :: _ => isWhite g

/-- Whether a character may stand in an anchor or a directive name. -/
def isWordChar (c : Char) : Bool :=
  c.isAlphanum || c == '-' || c == '_'

/-- Places the characters of a document, unifying its line breaks. -/
def place (line column offset : Nat) : List Char → List Glyph
  | [] => []
  | '\r' :: '\n' :: cs => ⟨'\n', line, column, offset⟩ :: place (line + 1) 0 (offset + 2) cs
  | c :: cs =>
    if c = '\n' ∨ c = '\r' ∨ c = nextLine then
      ⟨'\n', line, column, offset⟩ :: place (line + 1) 0 (offset + c.utf8Size) cs
    else if c = lineSeparator ∨ c = paragraphSeparator then
      ⟨c, line, column, offset⟩ :: place (line + 1) 0 (offset + c.utf8Size) cs
    else ⟨c, line, column, offset⟩ :: place line (column + 1) (offset + c.utf8Size) cs

/-- The glyphs of a document, unless it holds a character that YAML forbids. -/
def Glyph.ofText? (text : String) : Option (List Glyph) :=
  if text.toList.all isAllowed then some (place 0 0 0 text.toList) else none

/-- Whether a list of glyphs begins with a document marker: three dashes or three dots at the start of
a line, followed by white space or the end. -/
def atMarker (mark : Char) : List Glyph → Bool
  | a :: b :: c :: rest =>
    a.column == 0 && a.char == mark && b.char == mark && c.char == mark && endsWord rest
  | _ => false

/-- Whether a list of glyphs begins with either document marker. -/
def atDocumentMarker (glyphs : List Glyph) : Bool :=
  atMarker '-' glyphs || atMarker '.' glyphs

end AtomicCss.Yaml
