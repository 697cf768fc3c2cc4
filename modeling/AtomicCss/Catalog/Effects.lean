import AtomicCss.Catalog.Entry
import AtomicCss.Theme.Scale

/-!
# Border, background and effect utilities

Border widths and styles, corner radii, outlines, rings, shadows, opacity, blurs and backgrounds.
-/

namespace AtomicCss.Catalog.Effects

/-- Border families with the widths that they set. -/
def borderSides : List (String × List String) :=
  [("border", ["border-width"]), ("border-x", ["border-inline-width"]),
   ("border-y", ["border-block-width"]), ("border-s", ["border-inline-start-width"]),
   ("border-e", ["border-inline-end-width"]), ("border-t", ["border-top-width"]),
   ("border-r", ["border-right-width"]), ("border-b", ["border-bottom-width"]),
   ("border-l", ["border-left-width"])]

def borderWidths : List String :=
  ["0", "2", "4", "8"]

/-- Styles of a border; the first four also of an outline. -/
def lineStyles : List (String × String) :=
  [("solid", "solid"), ("dashed", "dashed"), ("dotted", "dotted"), ("double", "double"),
   ("hidden", "hidden"), ("none", "none")]

/-- Rounding families with the corners that they set. -/
def corners : List (String × List String) :=
  [("rounded", ["border-radius"]),
   ("rounded-s", ["border-start-start-radius", "border-end-start-radius"]),
   ("rounded-e", ["border-start-end-radius", "border-end-end-radius"]),
   ("rounded-t", ["border-top-left-radius", "border-top-right-radius"]),
   ("rounded-r", ["border-top-right-radius", "border-bottom-right-radius"]),
   ("rounded-b", ["border-bottom-right-radius", "border-bottom-left-radius"]),
   ("rounded-l", ["border-top-left-radius", "border-bottom-left-radius"]),
   ("rounded-tl", ["border-top-left-radius"]), ("rounded-tr", ["border-top-right-radius"]),
   ("rounded-br", ["border-bottom-right-radius"]), ("rounded-bl", ["border-bottom-left-radius"])]

def gradientDirections : List (String × String) :=
  [("t", "to top"), ("tr", "to top right"), ("r", "to right"), ("br", "to bottom right"),
   ("b", "to bottom"), ("bl", "to bottom left"), ("l", "to left"), ("tl", "to top left")]

def backgroundSizes : List (String × String) :=
  [("auto", "auto"), ("cover", "cover"), ("contain", "contain")]

def backgroundPositions : List (String × String) :=
  [("bottom", "bottom"), ("center", "center"), ("left", "left"), ("left-bottom", "left bottom"),
   ("left-top", "left top"), ("right", "right"), ("right-bottom", "right bottom"),
   ("right-top", "right top"), ("top", "top")]

def backgroundRepeats : List (String × String) :=
  [("repeat", "repeat"), ("no-repeat", "no-repeat"), ("repeat-x", "repeat-x"),
   ("repeat-y", "repeat-y"), ("repeat-round", "round"), ("repeat-space", "space")]

def backgroundAttachments : List (String × String) :=
  [("fixed", "fixed"), ("local", "local"), ("scroll", "scroll")]

def backgroundClips : List (String × String) :=
  [("border", "border-box"), ("padding", "padding-box"), ("content", "content-box"),
   ("text", "text")]

/-- Blur radii; an empty one is no filter at all. -/
def blurs : List (String × String) :=
  [("none", ""), ("xs", "4px"), ("sm", "8px"), ("md", "12px"), ("lg", "16px"), ("xl", "24px"),
   ("2xl", "40px"), ("3xl", "64px")]

/-- Widths of rings and outlines in pixels. -/
def ringWidths : List String :=
  ["0", "1", "2", "4", "8"]

/-- Opacities in percent, in steps of five. -/
def opacities : List String :=
  ["0", "5", "10", "15", "20", "25", "30", "35", "40", "45", "50", "55", "60", "65", "70", "75",
   "80", "85", "90", "95", "100"]

/-- Border widths of every side, then border styles and the borders of tables. -/
def borders : List Entry :=
  borderSides.flatMap (fun (family, properties) =>
    entryOfEach family properties "1px" ::
      borderWidths.map fun width => entryOfEach (member family width) properties (width ++ "px")) ++
  scaleEntries "border" ["border-style"] lineStyles ++
  [entry "border-collapse" [("border-collapse", "collapse")],
   entry "border-separate" [("border-collapse", "separate")]]

/-- Corner radii of every group of corners. -/
def radii : List Entry :=
  corners.flatMap fun (family, properties) =>
    [entryOfEach family properties "0.25rem",
     entryOfEach (member family "none") properties "0",
     entryOfEach (member family "full") properties "calc(infinity * 1px)"] ++
    Scale.radius.map fun (name, _) =>
      entryOfEach (member family name) properties ("var(--radius-" ++ name ++ ")")

/-- The shadow of a ring of so many pixels. -/
def ringShadow (width : String) : String :=
  "0 0 0 " ++ width ++ "px var(--tw-ring-color, currentColor)"

def outlines : List Entry :=
  [entry "outline-none" [("outline", "2px solid transparent"), ("outline-offset", "2px")],
   entry "outline-hidden" [("outline", "2px solid transparent"), ("outline-offset", "2px")],
   entry "outline" [("outline-style", "solid"), ("outline-width", "1px")]] ++
  ringWidths.flatMap (fun width =>
    [entry (member "outline" width) [("outline-width", width ++ "px")],
     entry (member "outline-offset" width) [("outline-offset", width ++ "px")]]) ++
  scaleEntries "outline" ["outline-style"] (lineStyles.take 4) ++
  [entry "ring" [("box-shadow", ringShadow "1")], entry "ring-inset" [("--tw-ring-inset", "inset")]] ++
  ringWidths.map fun width => entry (member "ring" width) [("box-shadow", ringShadow width)]

def shadows : List Entry :=
  Scale.shadows.map (fun (name, _) =>
    entry (member "shadow" name) [("box-shadow", "var(--shadow-" ++ name ++ ")")]) ++
  [entry "shadow" [("box-shadow", "var(--shadow-sm)")],
   entry "shadow-none" [("box-shadow", "0 0 #0000")]]

/-- The entries of one blur radius; there is no name for the absence of a backdrop filter. -/
def blurEntries (name radius : String) : List Entry :=
  if radius.isEmpty then [entry (member "blur" name) [("filter", "none")]]
  else
    let value := "blur(" ++ radius ++ ")"
    [entry (member "blur" name) [("filter", value)],
     entry (member "backdrop-blur" name) [("backdrop-filter", value)]]

/-- The image of a gradient in a direction. -/
def gradient (direction : String) : String :=
  "linear-gradient(" ++ direction ++
    ", var(--tw-gradient-from, transparent), var(--tw-gradient-to, transparent))"

def backgrounds : List Entry :=
  gradientDirections.flatMap (fun (name, direction) =>
    [entry (member "bg-linear-to" name) [("background-image", gradient direction)],
     entry (member "bg-gradient-to" name) [("background-image", gradient direction)]]) ++
  [entry "bg-none" [("background-image", "none")]] ++
  scaleEntries "bg" ["background-size"] backgroundSizes ++
  scaleEntries "bg" ["background-position"] backgroundPositions ++
  scaleEntries "bg" ["background-repeat"] backgroundRepeats ++
  scaleEntries "bg" ["background-attachment"] backgroundAttachments ++
  scaleEntries "bg-clip" ["background-clip"] backgroundClips

/-- All border, background and effect utilities. -/
def entries : List Entry :=
  borders ++ radii ++ outlines ++ shadows ++
  opacities.map (fun n => entry (member "opacity" n) [("opacity", n ++ "%")]) ++
  blurs.flatMap (fun (name, radius) => blurEntries name radius) ++
  backgrounds

end AtomicCss.Catalog.Effects
