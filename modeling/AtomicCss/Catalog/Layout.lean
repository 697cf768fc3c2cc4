import AtomicCss.Catalog.Entry

/-!
# Layout utilities

Display, position, visibility, floats, overflow, object fit, stacking, columns and breaks.
-/

namespace AtomicCss.Catalog.Layout

def display : List (String × String) :=
  [("block", "block"), ("inline-block", "inline-block"), ("inline", "inline"), ("flex", "flex"),
   ("inline-flex", "inline-flex"), ("grid", "grid"), ("inline-grid", "inline-grid"),
   ("contents", "contents"), ("flow-root", "flow-root"), ("table", "table"),
   ("inline-table", "inline-table"), ("table-caption", "table-caption"),
   ("table-cell", "table-cell"), ("table-column", "table-column"),
   ("table-column-group", "table-column-group"), ("table-footer-group", "table-footer-group"),
   ("table-header-group", "table-header-group"), ("table-row-group", "table-row-group"),
   ("table-row", "table-row"), ("list-item", "list-item"), ("hidden", "none")]

def positions : List String :=
  ["static", "fixed", "absolute", "relative", "sticky"]

def visibility : List (String × String) :=
  [("visible", "visible"), ("invisible", "hidden"), ("collapse", "collapse")]

def floats : List (String × String) :=
  [("start", "inline-start"), ("end", "inline-end"), ("left", "left"), ("right", "right"),
   ("none", "none")]

def clears : List (String × String) :=
  [("start", "inline-start"), ("end", "inline-end"), ("left", "left"), ("right", "right"),
   ("both", "both"), ("none", "none")]

/-- What happens to content that is too large. -/
def overflows : List (String × String) :=
  [("auto", "auto"), ("hidden", "hidden"), ("clip", "clip"), ("visible", "visible"),
   ("scroll", "scroll")]

/-- What happens at the end of scrolling. -/
def overscrolls : List (String × String) :=
  [("auto", "auto"), ("contain", "contain"), ("none", "none")]

/-- How replaced content is fitted and placed: name, property and value. -/
def objects : List (String × String × String) :=
  [("contain", "object-fit", "contain"), ("cover", "object-fit", "cover"),
   ("fill", "object-fit", "fill"), ("none", "object-fit", "none"),
   ("scale-down", "object-fit", "scale-down"), ("center", "object-position", "center"),
   ("top", "object-position", "top"), ("bottom", "object-position", "bottom"),
   ("left", "object-position", "left"), ("right", "object-position", "right"),
   ("left-top", "object-position", "left top"), ("left-bottom", "object-position", "left bottom"),
   ("right-top", "object-position", "right top"),
   ("right-bottom", "object-position", "right bottom")]

def stacking : List (String × String) :=
  [("0", "0"), ("10", "10"), ("20", "20"), ("30", "30"), ("40", "40"), ("50", "50"),
   ("auto", "auto")]

def aspects : List (String × String) :=
  [("auto", "auto"), ("square", "1 / 1"), ("video", "16 / 9")]

/-- Breaks before and after a box; the first four also inside of it. -/
def breaks : List (String × String) :=
  [("auto", "auto"), ("avoid", "avoid"), ("all", "all"), ("avoid-page", "avoid-page"),
   ("page", "page"), ("left", "left"), ("right", "right"), ("column", "column"),
   ("avoid-column", "avoid-column")]

/-- Names that belong to no family. -/
def singles : List Entry :=
  [entry "isolate" [("isolation", "isolate")],
   entry "isolation-auto" [("isolation", "auto")],
   entry "box-border" [("box-sizing", "border-box")],
   entry "box-content" [("box-sizing", "content-box")],
   entry "box-decoration-clone"
     [("-webkit-box-decoration-break", "clone"), ("box-decoration-break", "clone")],
   entry "box-decoration-slice"
     [("-webkit-box-decoration-break", "slice"), ("box-decoration-break", "slice")]]

/-- Containers, and content for screen readers only. -/
def containers : List Entry :=
  [entry "@container" [("container-type", "inline-size")],
   entry "@container-normal" [("container-type", "normal")],
   entry "sr-only"
     [("position", "absolute"), ("width", "1px"), ("height", "1px"), ("padding", "0"),
      ("margin", "-1px"), ("overflow", "hidden"), ("clip", "rect(0, 0, 0, 0)"),
      ("white-space", "nowrap"), ("border-width", "0")],
   entry "not-sr-only"
     [("position", "static"), ("width", "auto"), ("height", "auto"), ("padding", "0"),
      ("margin", "0"), ("overflow", "visible"), ("clip", "auto"), ("white-space", "normal")]]

def entries : List Entry :=
  keywordEntries "display" display ++
  positions.map (fun name => entry name [("position", name)]) ++
  keywordEntries "visibility" visibility ++
  singles ++
  scaleEntries "float" ["float"] floats ++
  scaleEntries "clear" ["clear"] clears ++
  scaleEntries "overflow" ["overflow"] overflows ++
  scaleEntries "overflow-x" ["overflow-x"] overflows ++
  scaleEntries "overflow-y" ["overflow-y"] overflows ++
  scaleEntries "overscroll" ["overscroll-behavior"] overscrolls ++
  scaleEntries "overscroll-x" ["overscroll-behavior-x"] overscrolls ++
  scaleEntries "overscroll-y" ["overscroll-behavior-y"] overscrolls ++
  objects.map (fun (name, property, value) => entry (member "object" name) [(property, value)]) ++
  scaleEntries "z" ["z-index"] stacking ++
  scaleEntries "aspect" ["aspect-ratio"] aspects ++
  twelve.map (fun n => entry (member "columns" n) [("columns", n)]) ++
  [entry "columns-auto" [("columns", "auto")]] ++
  scaleEntries "break-before" ["break-before"] breaks ++
  scaleEntries "break-after" ["break-after"] breaks ++
  scaleEntries "break-inside" ["break-inside"] (breaks.take 4) ++
  containers

end AtomicCss.Catalog.Layout
