import AtomicCss.Yaml.Glyph

/-!
# Scalars

The text of a scalar is not what stands in the document: line breaks are folded, escapes are decoded,
indentation is taken away. The functions here read one scalar and return its text with the glyphs
behind it; `none` means that the document is malformed.

* `readQuoted` — single and double quoted scalars;
* `readPlain` — scalars without quotes, which end where an indicator or the indentation says so;
* `readBlock` — literal and folded block scalars with their header.

The white space *inside* a quoted or plain scalar is read as a whole, a run of spaces and breaks, and
`foldWhite` says what it stands for: on one line itself, over several lines one space, or one break less
than stand there.
-/

namespace AtomicCss.Yaml

/-- Dropping never makes a list longer. -/
theorem length_dropWhile_le (p : Glyph → Bool) (l : List Glyph) :
    (l.dropWhile p).length ≤ l.length :=
  (List.dropWhile_sublist p).length_le

/-- A text read in front of more text. -/
def prepend (front : List Char) : Option (List Char × List Glyph) → Option (List Char × List Glyph) :=
  Option.map fun (text, rest) => (front ++ text, rest)

/-! ## White space inside scalars -/

/-- What a first break and the breaks behind it stand for: a plain break alone is a space, and gives way
to the breaks behind it; other breaks are kept. -/
def foldBreaks (first : Char) (others : List Char) : List Char :=
  if first = '\n' then (if others.isEmpty then [' '] else others) else first :: others

/-- What a run of white space inside a scalar stands for. Without a break it is kept; with one, the
spaces go and the breaks are folded. -/
def foldWhite (run : List Glyph) : List Char :=
  match (run.filter isBreak).map Glyph.char with
  | [] => run.map Glyph.char
  | first :: others => foldBreaks first others

/-- What a run of white space stands for behind an escaped break: its breaks alone. -/
def foldEscaped (run : List Glyph) : List Char :=
  (run.filter isBreak).map Glyph.char

/-! ## Escapes -/

/-- The value of a hexadecimal digit. -/
def hexValue? (c : Char) : Option Nat :=
  if c.isDigit then some (c.toNat - '0'.toNat)
  else if 'a' ≤ c ∧ c ≤ 'f' then some (c.toNat - 'a'.toNat + 10)
  else if 'A' ≤ c ∧ c ≤ 'F' then some (c.toNat - 'A'.toNat + 10)
  else none

/-- The value of hexadecimal digits, all of which must be such. -/
def hexNumber? (digits : List Char) : Option Nat :=
  digits.foldlM (fun n c => (hexValue? c).map (16 * n + ·)) 0

/-- The character of a code point that is one. -/
def charOfNat? (n : Nat) : Option Char :=
  if n.isValidChar then some (Char.ofNat n) else none

/-- The escapes of a single letter, with the characters that they stand for. -/
def simpleEscapes : List (Char × Char) :=
  [('0', '\x00'), ('a', '\x07'), ('b', '\x08'), ('t', '\t'), ('\t', '\t'), ('n', '\n'),
   ('v', '\x0b'), ('f', '\x0c'), ('r', '\r'), ('e', '\x1b'), (' ', ' '), ('"', '"'), ('/', '/'),
   ('\\', '\\'), ('N', nextLine), ('_', '\u00a0'), ('L', lineSeparator), ('P', paragraphSeparator)]

/-- The escapes that are followed by hexadecimal digits, with their number. -/
def hexEscapes : List (Char × Nat) :=
  [('x', 2), ('u', 4), ('U', 8)]

/-- The character that an escape stands for, with the number of glyphs that it takes behind its letter;
`none` for an unknown letter, missing digits and numbers that are no character. -/
def escape? (letter : Char) (rest : List Glyph) : Option (Char × Nat) :=
  match simpleEscapes.lookup letter with
  | some c => some (c, 0)
  | none =>
    match hexEscapes.lookup letter with
    | none => none
    | some count =>
      let digits := (rest.take count).map Glyph.char
      if digits.length = count then
        ((hexNumber? digits).bind charOfNat?).map fun c => (c, count)
      else none

/-! ## Quoted scalars -/

/-- Reads a quoted scalar behind its opening quote. In single quotes only a doubled quote is special; in
double quotes a backslash escapes a character or a line break. A document marker may not stand inside. -/
def readQuoted (single : Bool) : List Glyph → Option (List Char × List Glyph)
  | [] => none
  | g :: rest =>
    if atDocumentMarker (g :: rest) then none
    else if isWhite g then
      let run := rest.takeWhile isWhite
      prepend (foldWhite (g :: run)) (readQuoted single (rest.dropWhile isWhite))
    else if single then
      if g.char = '\'' then
        match rest with
        | [] => some ([], [])
        | q :: more => if q.char = '\'' then prepend ['\''] (readQuoted single more) else some ([], rest)
      else prepend [g.char] (readQuoted single rest)
    else if g.char = '"' then some ([], rest)
    else if g.char = '\\' then
      match rest with
      | [] => none
      | e :: more =>
        if isBreak e then
          let run := more.takeWhile isWhite
          prepend (foldEscaped run) (readQuoted single (more.dropWhile isWhite))
        else
          match escape? e.char more with
          | some (c, count) => prepend [c] (readQuoted single (more.drop count))
          | none => none
    else prepend [g.char] (readQuoted single rest)
  termination_by glyphs => glyphs.length
  decreasing_by
    all_goals simp only [List.length_cons, List.length_drop]
    all_goals first
      | exact Nat.lt_succ_of_le (length_dropWhile_le _ _)
      | exact Nat.lt_succ_of_lt (Nat.lt_succ_of_le (length_dropWhile_le _ _))
      | omega

/-! ## Plain scalars -/

/-- The characters that end a plain scalar between brackets or braces. -/
def flowIndicators : List Char :=
  [',', '[', ']', '\x7b', '\x7d']

/-- Whether a colon is followed by a character that may not follow it between brackets or braces. -/
def isMisplacedColon : List Glyph → Bool
  | c :: d :: _ => c.char == ':' && ('?' :: flowIndicators).contains d.char
  | _ => false

/-- Whether a plain scalar ends in front of a list of glyphs, white space apart: at a colon that ends a
word and, between brackets or braces, at their indicators. -/
def endsPlain (inFlow : Bool) : List Glyph → Bool
  | [] => true
  | g :: rest => (g.char == ':' && endsWord rest) || (inFlow && flowIndicators.contains g.char)

/-- Reads a run of a plain scalar without white space. -/
def readPlainRun (inFlow : Bool) : List Glyph → Option (List Char × List Glyph)
  | [] => some ([], [])
  | g :: rest =>
    if isWhite g then some ([], g :: rest)
    else if inFlow && isMisplacedColon (g :: rest) then none
    else if endsPlain inFlow (g :: rest) then some ([], g :: rest)
    else prepend [g.char] (readPlainRun inFlow rest)

/-- A run ends no later than the glyphs do. -/
theorem length_readPlainRun_le {inFlow : Bool} {glyphs rest : List Glyph} {text : List Char}
    (h : readPlainRun inFlow glyphs = some (text, rest)) :
    rest.length ≤ glyphs.length ∧ (text ≠ [] → rest.length < glyphs.length) := by
  induction glyphs generalizing text with
  | nil => simp_all [readPlainRun]
  | cons g gs ih =>
    simp only [readPlainRun] at h
    split at h
    · simp_all
    · split at h
      · simp at h
      · split at h
        · simp_all
        · simp only [prepend, Option.map_eq_some_iff, Prod.mk.injEq] at h
          obtain ⟨⟨t, r⟩, hr, rfl, rfl⟩ := h
          have := (ih hr).1
          exact ⟨Nat.le_succ_of_le this, fun _ => Nat.lt_succ_of_le this⟩

/-- Whether a tab stands behind a line break in a run of white space, left of a column. -/
def hasTabIndent (indent : Int) (run : List Glyph) : Bool :=
  (run.dropWhile (!isBreak ·)).any fun g => g.char == '\t' && g.column < indent

/-- Whether a list of glyphs begins left of a column. -/
def isOutdented (indent : Int) : List Glyph → Bool
  | [] => false
  | g :: _ => g.column < indent

/-- The text of a plain scalar, the glyphs behind it, and whether it was ended by a new line. -/
structure PlainScalar where
  text : List Char
  /-- What follows, white space left out. -/
  rest : List Glyph
  /-- Whether a line break stands between the scalar and what follows. -/
  endsLine : Bool
  deriving DecidableEq, Repr, Inhabited

/-- Reads a plain scalar run by run. It ends at an indicator, a comment, a document marker or, outside of
brackets and braces, a line that is indented less than `indent`. `newLine` tells whether a line break
stands in front. -/
def readPlain (inFlow : Bool) (indent : Int) (newLine : Bool) (glyphs : List Glyph) :
    Option PlainScalar :=
  if atDocumentMarker glyphs || glyphs.head?.any (·.char == '#') then some ⟨[], glyphs, newLine⟩
  else
    match _h : readPlainRun inFlow glyphs with
    | none => none
    | some ([], _) => some ⟨[], glyphs, newLine⟩
    | some (c :: text, rest) =>
      let run := rest.takeWhile isWhite
      let after := rest.dropWhile isWhite
      let broken := run.any isBreak
      if run.isEmpty then some ⟨c :: text, rest, false⟩
      else if hasTabIndent indent run then none
      else if !inFlow && isOutdented indent after then some ⟨c :: text, after, broken⟩
      else
        (readPlain inFlow indent broken after).map fun more =>
          if more.text.isEmpty then { more with text := c :: text }
          else { more with text := c :: text ++ foldWhite run ++ more.text }
  termination_by glyphs.length
  decreasing_by
    exact Nat.lt_of_le_of_lt (length_dropWhile_le _ _)
      ((length_readPlainRun_le _h).2 (List.cons_ne_nil _ _))

/-! ## Block scalars -/

/-- What happens to the line breaks at the end of a block scalar. -/
inductive Chomping where
  | strip
  | clip
  | keep
  deriving DecidableEq, Repr, Inhabited

/-- The header of a block scalar behind its indicator: chomping and indentation, each at most once and in
either order. An indentation of zero is malformed. -/
def readHeader : List Glyph → Option (Chomping × Option Nat × List Glyph)
  | [] => some (.clip, none, [])
  | g :: rest =>
    let digit? (c : Char) : Option Nat := if c.isDigit then some (c.toNat - '0'.toNat) else none
    let chomping? (c : Char) : Option Chomping :=
      if c = '+' then some .keep else if c = '-' then some .strip else none
    match chomping? g.char with
    | some chomping =>
      match rest with
      | [] => some (chomping, none, [])
      | d :: more =>
        match digit? d.char with
        | some 0 => none
        | some n => some (chomping, some n, more)
        | none => some (chomping, none, rest)
    | none =>
      match digit? g.char with
      | some 0 => none
      | some n =>
        match rest with
        | [] => some (.clip, some n, [])
        | c :: more =>
          match chomping? c.char with
          | some chomping => some (chomping, some n, more)
          | none => some (.clip, some n, rest)
      | none => some (.clip, none, g :: rest)

/-- Skips spaces and a comment up to the end of the line and the break there; anything else on the line
is malformed. -/
def skipLineEnd (glyphs : List Glyph) : Option (List Glyph) :=
  let rest := glyphs.dropWhile isSpace
  let rest := if rest.head?.any (·.char == '#') then rest.dropWhile (!isBreak ·) else rest
  match rest with
  | [] => some []
  | g :: more => if isBreak g then some more else none

/-- The largest number of columns that the spaces in front of the first text of a block scalar take, its
blank lines included; a tab there is malformed. -/
def leadingColumns (column widest : Nat) : List Glyph → Option Nat
  | [] => some widest
  | g :: rest =>
    if g.char = ' ' then leadingColumns (column + 1) (max (column + 1) widest) rest
    else if g.char = '\t' then none
    else if isBreak g then leadingColumns 0 widest rest
    else some widest

/-- Skips the indentation of a line of a block scalar and the blank lines in front of it, and returns the
line breaks; a tab inside the indentation is malformed. -/
def readBlankLines (indent : Nat) : List Glyph → Option (List Char × List Glyph)
  | [] => some ([], [])
  | g :: rest =>
    if g.char = ' ' ∧ g.column < indent then readBlankLines indent rest
    else if g.char = '\t' ∧ g.column < indent then none
    else if isBreak g then prepend [g.char] (readBlankLines indent rest)
    else some ([], g :: rest)

/-- Blank lines end no later than the glyphs do. -/
theorem length_readBlankLines_le {indent : Nat} {glyphs rest : List Glyph} {text : List Char}
    (h : readBlankLines indent glyphs = some (text, rest)) : rest.length ≤ glyphs.length := by
  induction glyphs generalizing text with
  | nil => simp_all [readBlankLines]
  | cons g gs ih =>
    simp only [readBlankLines] at h
    split at h
    · exact Nat.le_succ_of_le (ih h)
    · split at h
      · simp at h
      · split at h
        · simp only [prepend, Option.map_eq_some_iff, Prod.mk.injEq] at h
          obtain ⟨⟨t, r⟩, hr, rfl, rfl⟩ := h
          exact Nat.le_succ_of_le (ih hr)
        · simp_all

/-- What stands between two lines of a block scalar: the break that ends the first, `first`, and those of
the blank lines behind it. A folded scalar joins two lines that do not begin with white space. -/
def joinLines (literal spaced : Bool) (first blank : List Char) : List Char :=
  if !literal && !spaced && first = ['\n'] then (if blank.isEmpty then [' '] else blank)
  else first ++ blank

/-- The line breaks that stay at the end of a block scalar: of the break behind the last line, `first`, and
those of the blank lines behind it. -/
def Chomping.breaks (first blank : List Char) : Chomping → List Char
  | strip => []
  | clip => first
  | keep => first ++ blank

/-- Reads the lines of a block scalar. `first` and `blank` are the breaks in front of the line at hand, and
`spaced` tells whether the line before it begins with white space. -/
def readLines (literal : Bool) (chomping : Chomping) (indent : Nat) (spaced : Bool)
    (first blank : List Char) : List Glyph → Option (List Char × List Glyph)
  | [] => some (chomping.breaks first blank, [])
  | g :: rest =>
    if g.column = indent then
      let line := g :: rest.takeWhile (!isBreak ·)
      match rest.dropWhile (!isBreak ·), length_dropWhile_le (!isBreak ·) rest with
      | [], _ =>
        prepend (joinLines literal (spaced || isSpace g) first blank ++ line.map Glyph.char)
          (some ([], []))
      | b :: more, _hmore =>
        match _h : readBlankLines indent more with
        | none => none
        | some (blank', rest') =>
          prepend (joinLines literal (spaced || isSpace g) first blank ++ line.map Glyph.char)
            (readLines literal chomping indent (isSpace g) [b.char] blank' rest')
    else some (chomping.breaks first blank, g :: rest)
  termination_by glyphs => glyphs.length
  decreasing_by
    have := length_readBlankLines_le _h
    simp only [List.length_cons] at _hmore ⊢
    omega

/-- Reads a block scalar behind its indicator; `parent` is the indentation of the collection it stands
in, `-1` outside of all. Without a number in the header the indentation is that of the first text, but
more than the parent's. -/
def readBlock (literal : Bool) (parent : Int) (glyphs : List Glyph) :
    Option (List Char × List Glyph) := do
  let (chomping, increment, rest) ← readHeader glyphs
  let rest ← skipLineEnd rest
  let indent ←
    match increment with
    | some n => some ((max parent 0).toNat + n)
    | none => (leadingColumns 0 0 rest).map fun widest => max widest (max (parent + 1) 1).toNat
  let (blank, rest) ← readBlankLines indent rest
  readLines literal chomping indent false [] blank rest

end AtomicCss.Yaml
