import AtomicCss.Catalog.Entry
import AtomicCss.Theme.Scale

/-!
# Typography utilities

The type scale, fonts and weights of the theme, alignment, decoration, white space, line height, letter
spacing and lists.
-/

namespace AtomicCss.Catalog.Typography

def textAlign : List (String × String) :=
  [("left", "left"), ("center", "center"), ("right", "right"), ("justify", "justify"),
   ("start", "start"), ("end", "end")]

def transforms : List (String × String) :=
  [("uppercase", "uppercase"), ("lowercase", "lowercase"), ("capitalize", "capitalize"),
   ("normal-case", "none")]

def decorationLines : List (String × String) :=
  [("underline", "underline"), ("overline", "overline"), ("line-through", "line-through"),
   ("no-underline", "none")]

def decorationStyles : List (String × String) :=
  [("solid", "solid"), ("double", "double"), ("dotted", "dotted"), ("dashed", "dashed"),
   ("wavy", "wavy")]

def decorationThickness : List (String × String) :=
  [("auto", "auto"), ("from-font", "from-font"), ("0", "0px"), ("1", "1px"), ("2", "2px"),
   ("4", "4px"), ("8", "8px")]

def underlineOffsets : List (String × String) :=
  [("auto", "auto"), ("0", "0px"), ("1", "1px"), ("2", "2px"), ("4", "4px"), ("8", "8px")]

def whiteSpace : List (String × String) :=
  [("normal", "normal"), ("nowrap", "nowrap"), ("pre", "pre"), ("pre-line", "pre-line"),
   ("pre-wrap", "pre-wrap"), ("break-spaces", "break-spaces")]

def textWrap : List (String × String) :=
  [("wrap", "wrap"), ("nowrap", "nowrap"), ("balance", "balance"), ("pretty", "pretty")]

def leading : List (String × String) :=
  [("none", "1"), ("tight", "1.25"), ("snug", "1.375"), ("normal", "1.5"), ("relaxed", "1.625"),
   ("loose", "2")]

def tracking : List (String × String) :=
  [("tighter", "-0.05em"), ("tight", "-0.025em"), ("normal", "0em"), ("wide", "0.025em"),
   ("wider", "0.05em"), ("widest", "0.1em")]

def listTypes : List (String × String) :=
  [("none", "none"), ("disc", "disc"), ("decimal", "decimal")]

def listPositions : List (String × String) :=
  [("inside", "inside"), ("outside", "outside")]

def verticalAlign : List (String × String) :=
  [("baseline", "baseline"), ("top", "top"), ("middle", "middle"), ("bottom", "bottom"),
   ("text-top", "text-top"), ("text-bottom", "text-bottom"), ("sub", "sub"), ("super", "super")]

/-- The type scale of the theme: size and line height. -/
def sizes : List Entry :=
  Scale.text.map fun (name, _) =>
    entry (member "text" name)
      [("font-size", "var(--text-" ++ name ++ ")"),
       ("line-height", "var(--text-" ++ name ++ "--line-height)")]

/-- The font weights of the theme. -/
def weights : List Entry :=
  Scale.fontWeights.map fun (name, _) =>
    entry (member "font" name) [("font-weight", "var(--font-weight-" ++ name ++ ")")]

def fonts : List Entry :=
  Scale.fonts.map fun (name, _) =>
    entry (member "font" name) [("font-family", "var(--font-" ++ name ++ ")")]

/-- How text that is too long ends. -/
def truncation : List Entry :=
  [entry "truncate"
     [("overflow", "hidden"), ("text-overflow", "ellipsis"), ("white-space", "nowrap")],
   entry "text-ellipsis" [("text-overflow", "ellipsis")],
   entry "text-clip" [("text-overflow", "clip")]]

def wordBreaks : List Entry :=
  [entry "break-normal" [("overflow-wrap", "normal"), ("word-break", "normal")],
   entry "break-words" [("overflow-wrap", "break-word")],
   entry "break-all" [("word-break", "break-all")],
   entry "break-keep" [("word-break", "keep-all")],
   entry "wrap-anywhere" [("overflow-wrap", "anywhere")]]

def smoothing : List Entry :=
  [entry "antialiased"
     [("-webkit-font-smoothing", "antialiased"), ("-moz-osx-font-smoothing", "grayscale")],
   entry "subpixel-antialiased"
     [("-webkit-font-smoothing", "auto"), ("-moz-osx-font-smoothing", "auto")]]

def entries : List Entry :=
  sizes ++ weights ++ fonts ++
  [entry "italic" [("font-style", "italic")], entry "not-italic" [("font-style", "normal")]] ++
  scaleEntries "text" ["text-align"] textAlign ++
  keywordEntries "text-transform" transforms ++
  keywordEntries "text-decoration-line" decorationLines ++
  scaleEntries "decoration" ["text-decoration-style"] decorationStyles ++
  scaleEntries "decoration" ["text-decoration-thickness"] decorationThickness ++
  scaleEntries "underline-offset" ["text-underline-offset"] underlineOffsets ++
  truncation ++
  scaleEntries "whitespace" ["white-space"] whiteSpace ++
  scaleEntries "text" ["text-wrap"] textWrap ++
  wordBreaks ++
  scaleEntries "leading" ["line-height"] leading ++
  scaleEntries "tracking" ["letter-spacing"] tracking ++
  smoothing ++
  scaleEntries "list" ["list-style-type"] listTypes ++
  scaleEntries "list" ["list-style-position"] listPositions ++
  scaleEntries "align" ["vertical-align"] verticalAlign ++
  [entry "content-none" [("content", "none")]]

end AtomicCss.Catalog.Typography
