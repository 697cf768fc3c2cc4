import AtomicCss.Yaml.Scalar
import AtomicCss.Yaml.Token

/-!
# From characters to tokens

The scanner walks over the glyphs of a document and appends tokens. Two things need memory.

*Indentation.* Outside of brackets and braces, a token further to the right than the innermost collection
opens a new one, and a token to its left closes collections.

*Simple keys.* Whether a scalar or a collection on one line is a key shows only at the colon behind it.
So wherever a key may begin, its place in the token list is remembered, one for each level of brackets
and braces, and at the colon the key token is put in at that place. A key must have its colon on the
same line and within 1024 octets; one that stands where only a key can stand is *required*, and
missing its colon is an error.

* `Scanner.step` — reads the next token, `none` if the document is malformed;
* `Token.scan?` — the tokens of a document.
-/

namespace AtomicCss.Yaml

/-- A place where a key may have begun. -/
structure SimpleKey where
  /-- Whether nothing but a key can stand there. -/
  required : Bool
  /-- How many tokens stand in front. -/
  index : Nat
  /-- The glyph at which it begins. -/
  start : Glyph
  deriving DecidableEq, Repr, Inhabited

/-- What the scanner knows between two tokens. -/
structure Scanner where
  rest : List Glyph
  tokens : Array Token := #[]
  /-- The column of the innermost indented collection, `-1` outside of all. -/
  indent : Int := -1
  /-- The columns of the collections around it. -/
  outer : List Int := []
  /-- Whether a key may begin at the next token. -/
  keyAllowed : Bool := true
  /-- The possible key of each level, the innermost first; the last level is outside of all brackets. -/
  keys : List (Option SimpleKey) := [none]
  /-- The anchors seen, with the slot of each. -/
  anchors : List (String × Nat) := []
  deriving Inhabited

namespace Scanner

/-! ## Levels, keys and indentation -/

/-- Whether the scanner is between brackets or braces. -/
def inFlow (s : Scanner) : Bool :=
  s.keys.length > 1

def emit (s : Scanner) (token : Token) : Scanner :=
  { s with tokens := s.tokens.push token }

/-- Appends a token of so many glyphs. -/
def take (s : Scanner) (count : Nat) (token : Token) : Scanner :=
  { s.emit token with rest := s.rest.drop count }

/-- Sets whether a key may begin at the next token. -/
def allowKey (s : Scanner) (allowed : Bool) : Scanner :=
  { s with keyAllowed := allowed }

/-- Closes the indented collections to the right of a column. -/
def closeTo (column : Int) (indent : Int) (tokens : Array Token) :
    List Int → Int × List Int × Array Token
  | [] => (indent, [], tokens)
  | parent :: outer =>
    if indent > column then closeTo column parent (tokens.push .blockEnd) outer
    else (indent, parent :: outer, tokens)

/-- Closes the indented collections to the right of a column, unless between brackets or braces. -/
def unroll (s : Scanner) (column : Int) : Scanner :=
  if s.inFlow then s
  else
    let (indent, outer, tokens) := closeTo column s.indent s.tokens s.outer
    { s with indent, outer, tokens }

/-- Opens an indented collection at a column to the right of the innermost one, putting its token behind
`index` others, unless between brackets or braces. -/
def roll (s : Scanner) (column : Nat) (index : Nat) (token : Token) : Scanner :=
  if s.inFlow || s.indent ≥ column then s
  else
    { s with
      indent := column
      outer := s.indent :: s.outer
      tokens := s.tokens.insertIdxIfInBounds index token }

/-- Forgets the possible key of the innermost level, which must not be a required one. -/
def dropKey (s : Scanner) : Option Scanner :=
  match s.keys with
  | [] => some s
  | key :: keys =>
    if key.any (·.required) then none else some { s with keys := none :: keys }

/-- Remembers that a key may begin at a glyph, if one may. -/
def saveKey (s : Scanner) (start : Glyph) : Option Scanner :=
  if s.keyAllowed then do
    let s ← s.dropKey
    let key : SimpleKey :=
      { required := !s.inFlow && s.indent == start.column
        index := s.tokens.size
        start := start }
    return { s with keys := some key :: s.keys.tail }
  else some s

/-- Forgets the possible keys that are on an earlier line or too far back; a required one may not be. -/
def dropStale (s : Scanner) (here : Glyph) : Option Scanner := do
  let keys ← s.keys.mapM fun key =>
    match key with
    | none => some none
    | some key =>
      if key.start.line < here.line || key.start.offset + 1024 < here.offset then
        if key.required then none else some none
      else some (some key)
  return { s with keys }

/-! ## Between tokens -/

/-- Skips white space, comments, and a byte order mark that begins a line. Outside of brackets and braces a
line break allows a key behind it, and a tab may not stand where a key may begin. -/
def skipBlank (inFlow : Bool) (keyAllowed inComment : Bool) : List Glyph → List Glyph × Bool
  | [] => ([], keyAllowed)
  | g :: rest =>
    if isBreak g then skipBlank inFlow (keyAllowed || !inFlow) false rest
    else if inComment then skipBlank inFlow keyAllowed true rest
    else if g.char = ' ' ∨ (g.char = '\t' ∧ (inFlow ∨ !keyAllowed)) ∨
        (g.char = byteOrderMark ∧ g.column = 0) then
      skipBlank inFlow keyAllowed false rest
    else if g.char = '#' then skipBlank inFlow keyAllowed true rest
    else (g :: rest, keyAllowed)

/-! ## Directives -/

/-- A number in a version, of one to nine digits. -/
def readVersionNumber (glyphs : List Glyph) : Option (Nat × List Glyph) :=
  let digits := (glyphs.takeWhile (·.char.isDigit)).map Glyph.char
  if digits.isEmpty || digits.length > 9 then none
  else
    some (digits.foldl (fun n c => 10 * n + (c.toNat - '0'.toNat)) 0,
      glyphs.drop digits.length)

/-- A tag handle: `!`, a word, and `!` again unless the word runs on. The flag tells whether the second
`!` stands there. -/
def readHandle : List Glyph → Option (List Char × Bool × List Glyph)
  | [] => none
  | g :: rest =>
    if g.char = '!' then
      let word := (rest.takeWhile (isWordChar ·.char)).map Glyph.char
      match rest.dropWhile (isWordChar ·.char) with
      | [] => some ('!' :: word, false, [])
      | h :: more =>
        if h.char = '!' then some ('!' :: word ++ ['!'], true, more)
        else some ('!' :: word, false, h :: more)
    else none

/-- The characters besides letters, digits, `-` and `_` that a tag may hold; the last three only in a
verbatim tag. -/
def tagMarks (verbatim : Bool) : List Char :=
  [';', '/', '?', ':', '@', '&', '=', '+', '$', '.', '!', '~', '*', '\'', '(', ')'] ++
    (if verbatim then [',', '[', ']'] else [])

/-- An octet written as `%` and two hexadecimal digits. -/
def readOctet : List Glyph → Option (Nat × List Glyph)
  | p :: a :: b :: rest =>
    if p.char = '%' then (hexNumber? [a.char, b.char]).map fun n => (n, rest) else none
  | _ => none

/-- How many octets the UTF-8 form of a character has, by its first; `none` if it cannot be the first. -/
def octetCount? (first : Nat) : Option Nat :=
  if first < 0x80 then some 1
  else if 0xC0 ≤ first ∧ first < 0xE0 then some 2
  else if 0xE0 ≤ first ∧ first < 0xF0 then some 3
  else if 0xF0 ≤ first ∧ first < 0xF8 then some 4
  else none

/-- Further octets of a character. Tags are only compared, so an octet is kept as the character of its
number, and nothing is asked of the octets together. -/
def readTrailing : Nat → List Glyph → Option (List Char × List Glyph)
  | 0, glyphs => some ([], glyphs)
  | count + 1, glyphs => do
    let (octet, rest) ← readOctet glyphs
    if 0x80 ≤ octet ∧ octet < 0xC0 then prepend [Char.ofNat octet] (readTrailing count rest) else none

/-- A character written as escaped octets. -/
def readOctets (glyphs : List Glyph) : Option (List Char × List Glyph) := do
  let (first, rest) ← readOctet glyphs
  let count ← octetCount? first
  prepend [Char.ofNat first] (readTrailing (count - 1) rest)

/-- The characters of a tag. Each step takes at least one glyph, so as many steps as there are glyphs are
enough. -/
def readTagChars (verbatim : Bool) : Nat → List Glyph → Option (List Char × List Glyph)
  | 0, glyphs => some ([], glyphs)
  | _, [] => some ([], [])
  | steps + 1, g :: rest =>
    if g.char = '%' then do
      let (octets, rest) ← readOctets (g :: rest)
      prepend octets (readTagChars verbatim steps rest)
    else if isWordChar g.char || (tagMarks verbatim).contains g.char then
      prepend [g.char] (readTagChars verbatim steps rest)
    else some ([], g :: rest)

/-- A tag, or the rest of one behind `lead`; it may not be empty. A tag ends in front of its first NUL. -/
def readTagText (verbatim : Bool) (lead : List Char) (glyphs : List Glyph) :
    Option (List Char × List Glyph) := do
  let (text, rest) ← readTagChars verbatim glyphs.length glyphs
  if lead.isEmpty && text.isEmpty then none
  else some ((lead.drop 1 ++ text).takeWhile (· ≠ '\x00'), rest)

/-- The directive behind a `%`, and the glyphs behind its line. -/
def readDirective (glyphs : List Glyph) : Option (Token × List Glyph) := do
  let name := String.ofList ((glyphs.takeWhile (isWordChar ·.char)).map Glyph.char)
  let rest := glyphs.dropWhile (isWordChar ·.char)
  if !endsWord rest then none
  else if name = "YAML" then
    let (major, rest) ← readVersionNumber (rest.dropWhile isSpace)
    match rest with
    | dot :: rest =>
      if dot.char = '.' then
        let (minor, rest) ← readVersionNumber rest
        return (.version major minor, ← skipLineEnd rest)
      else none
    | [] => none
  else if name = "TAG" then
    let (handle, closed, rest) ← readHandle (rest.dropWhile isSpace)
    if !closed && handle ≠ ['!'] then none
    else if !rest.head?.any isSpace then none
    else
      let (lead, rest) ← readTagText true [] (rest.dropWhile isSpace)
      if endsWord rest then
        return (.tagHandle (String.ofList handle) (String.ofList lead), ← skipLineEnd rest)
      else none
  else none

/-! ## Anchors and tags -/

/-- The characters besides white space that may follow an anchor or alias. -/
def anchorEnds : List Char :=
  ['?', ':', ',', ']', '\x7d', '%', '@', '\x60']

/-- The name behind `&` or `*`. -/
def readName (glyphs : List Glyph) : Option (String × List Glyph) :=
  let name := (glyphs.takeWhile (isWordChar ·.char)).map Glyph.char
  let rest := glyphs.dropWhile (isWordChar ·.char)
  if !name.isEmpty && (endsWord rest || rest.head?.any (anchorEnds.contains ·.char)) then
    some (String.ofList name, rest)
  else none

/-- A tag that begins with a handle; a `!` alone stands for itself. -/
def readShortTag (glyphs : List Glyph) : Option (Token × List Glyph) := do
  let (handle, closed, rest) ← readHandle glyphs
  if closed then
    let (text, rest) ← readTagText false [] rest
    return (.tag (String.ofList handle) (String.ofList text), rest)
  else
    let (text, rest) ← readTagText false handle rest
    return (if text.isEmpty then .tag "" "!" else .tag "!" (String.ofList text), rest)

/-- A tag written out between angle brackets, behind the first of them. -/
def readVerbatimTag (glyphs : List Glyph) : Option (Token × List Glyph) := do
  let (text, rest) ← readTagText true [] glyphs
  match rest with
  | close :: rest =>
    if close.char = '>' then some (.tag "" (String.ofList text), rest) else none
  | [] => none

/-- A tag, from its first `!`; white space has to follow or, between brackets or braces, a comma. -/
def readTag (inFlow : Bool) (glyphs : List Glyph) : Option (Token × List Glyph) := do
  let (token, rest) ←
    match glyphs with
    | _ :: second :: rest => if second.char = '<' then readVerbatimTag rest else readShortTag glyphs
    | _ => readShortTag glyphs
  if (inFlow && rest.head?.any (·.char == ',')) || endsWord rest then some (token, rest) else none

/-! ## One token -/

/-- Reads an anchor. Its slot is numbered by how many names are known, and a known name moves to it. -/
def anchor (s : Scanner) : Option Scanner := do
  let (name, rest) ← readName (s.rest.drop 1)
  let slot := s.anchors.length
  let others := s.anchors.filter fun a => a.1 != name
  return { s.emit (.anchor slot) with rest, anchors := (name, slot) :: others }

/-- Reads an alias, which must name a known anchor. -/
def reference (s : Scanner) : Option Scanner := do
  let (name, rest) ← readName (s.rest.drop 1)
  let slot ← s.anchors.lookup name
  return { s.emit (.reference slot) with rest }

/-- A bracket or brace opens: a key may have begun at it and may begin behind it. -/
def openFlow (s : Scanner) (start : Glyph) (token : Token) : Option Scanner := do
  let s ← s.saveKey start
  return (({ s with keys := none :: s.keys }).allowKey true).take 1 token

def closeFlow (s : Scanner) (token : Token) : Option Scanner := do
  let s ← s.dropKey
  let keys := if s.inFlow then s.keys.tail else s.keys
  return (({ s with keys }).allowKey false).take 1 token

/-- A dash in front of an entry. Between brackets and braces it is left to the parser to refuse. -/
def entry (s : Scanner) (start : Glyph) : Option Scanner := do
  if !s.inFlow && !s.keyAllowed then none
  else
    let s := s.roll start.column s.tokens.size .blockSequenceStart
    let s ← s.dropKey
    return (s.allowKey true).take 1 .blockEntry

/-- A question mark in front of a key. -/
def explicitKey (s : Scanner) (start : Glyph) : Option Scanner := do
  if !s.inFlow && !s.keyAllowed then none
  else
    let s := s.roll start.column s.tokens.size .blockMappingStart
    let s ← s.dropKey
    return (s.allowKey !s.inFlow).take 1 .key

/-- A colon: either what stands in front of it turns out to be a key, or it belongs to an explicit one. -/
def value (s : Scanner) (start : Glyph) : Option Scanner :=
  match s.keys with
  | some key :: keys =>
    let s := { s with
      tokens := s.tokens.insertIdxIfInBounds key.index .key
      keys := none :: keys }
    let s := s.roll key.start.column key.index .blockMappingStart
    some ((s.allowKey false).take 1 .value)
  | _ =>
    if !s.inFlow && !s.keyAllowed then none
    else
      let s := s.roll start.column s.tokens.size .blockMappingStart
      some ((s.allowKey !s.inFlow).take 1 .value)

def quoted (s : Scanner) (start : Glyph) (single : Bool) : Option Scanner := do
  let s ← s.saveKey start
  let (text, rest) ← readQuoted single (s.rest.drop 1)
  return { (s.allowKey false).emit (.scalar false (String.ofList text)) with rest }

def block (s : Scanner) (literal : Bool) : Option Scanner := do
  let s ← s.dropKey
  let (text, rest) ← readBlock literal s.indent (s.rest.drop 1)
  return { (s.allowKey true).emit (.scalar false (String.ofList text)) with rest }

def plain (s : Scanner) (start : Glyph) : Option Scanner := do
  let s ← s.saveKey start
  let scalar ← readPlain s.inFlow (s.indent + 1) false s.rest
  return { (s.allowKey scalar.endsLine).emit (.scalar true (String.ofList scalar.text)) with
    rest := scalar.rest }

/-- A document marker or a directive ends everything in front of it. -/
def atLineStart (s : Scanner) : Option Scanner := do
  let s ← (s.unroll (-1)).dropKey
  return s.allowKey false

/-- The characters that a plain scalar may not begin with. -/
def indicators : List Char :=
  ['-', '?', ':', ',', '[', ']', '\x7b', '\x7d', '#', '&', '*', '!', '|', '>', '\'', '"', '%', '@',
   '\x60']

/-- Whether a plain scalar may begin with a glyph in front of others. A dash may begin one before
anything but a space, a question mark or colon outside of brackets and braces before a word. -/
def startsPlain (inFlow : Bool) (g : Glyph) (rest : List Glyph) : Bool :=
  !(isWhite g || indicators.contains g.char) ||
    (g.char == '-' && !rest.head?.any isSpace) ||
    (!inFlow && (g.char == '?' || g.char == ':') && !endsWord rest)

/-- Reads the token that begins with a glyph. -/
def readToken (s : Scanner) (g : Glyph) (rest : List Glyph) : Option Scanner :=
  if g.column = 0 ∧ g.char = '%' then do
    let s ← s.atLineStart
    let (token, rest) ← readDirective rest
    return { s.emit token with rest }
  else if atMarker '-' (g :: rest) then do return (← s.atLineStart).take 3 .documentStart
  else if atMarker '.' (g :: rest) then do return (← s.atLineStart).take 3 .documentEnd
  else if g.char = '[' then s.openFlow g .flowSequenceStart
  else if g.char = '\x7b' then s.openFlow g .flowMappingStart
  else if g.char = ']' then s.closeFlow .flowSequenceEnd
  else if g.char = '\x7d' then s.closeFlow .flowMappingEnd
  else if g.char = ',' then do return ((← s.dropKey).allowKey true).take 1 .flowEntry
  else if g.char = '-' ∧ endsWord rest then s.entry g
  else if g.char = '?' ∧ (s.inFlow ∨ endsWord rest) then s.explicitKey g
  else if g.char = ':' ∧ (s.inFlow ∨ endsWord rest) then s.value g
  else if g.char = '*' then do return (← (← s.saveKey g).reference).allowKey false
  else if g.char = '&' then do return (← (← s.saveKey g).anchor).allowKey false
  else if g.char = '!' then do
    let s ← s.saveKey g
    let (token, rest) ← readTag s.inFlow s.rest
    return { (s.allowKey false).emit token with rest }
  else if g.char = '|' ∧ !s.inFlow then s.block true
  else if g.char = '>' ∧ !s.inFlow then s.block false
  else if g.char = '\'' then s.quoted g true
  else if g.char = '"' then s.quoted g false
  else if startsPlain s.inFlow g rest then s.plain g
  else none

/-- Reads the next token: `inr` is the scanner behind it, `inl` all tokens at the end of the document. -/
def step (s : Scanner) : Option (Array Token ⊕ Scanner) := do
  let (rest, keyAllowed) := skipBlank s.inFlow s.keyAllowed false s.rest
  let s := { s with rest, keyAllowed }
  match rest with
  | [] =>
    let s ← (s.unroll (-1)).dropKey
    return .inl s.tokens
  | g :: rest =>
    let s ← s.dropStale g
    return .inr (← (s.unroll g.column).readToken g rest)

/-- Reads tokens to the end, in at most so many steps. -/
def run : Nat → Scanner → Option (Array Token)
  | 0, _ => none
  | steps + 1, s => do
    match ← s.step with
    | .inl tokens => return tokens
    | .inr s => run steps s

end Scanner

/-- The tokens of a document, unless it is malformed. Each token takes at least one glyph, so one step
more than there are glyphs is enough. -/
def Token.scan? (text : String) : Option (List Token) := do
  let glyphs ← Glyph.ofText? text
  let tokens ← Scanner.run (glyphs.length + 1) { rest := glyphs }
  return tokens.toList

end AtomicCss.Yaml
