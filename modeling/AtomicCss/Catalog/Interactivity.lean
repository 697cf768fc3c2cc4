import AtomicCss.Catalog.Entry

/-!
# Interactivity and table utilities

Cursors, selection, resizing, scrolling, touch, and the layout of tables.
-/

namespace AtomicCss.Catalog.Interactivity

def cursors : List String :=
  ["auto", "default", "pointer", "wait", "text", "move", "help", "not-allowed", "none",
   "context-menu", "progress", "cell", "crosshair", "vertical-text", "alias", "copy", "no-drop",
   "grab", "grabbing", "all-scroll", "col-resize", "row-resize", "n-resize", "e-resize",
   "s-resize", "w-resize", "ne-resize", "nw-resize", "se-resize", "sw-resize", "ew-resize",
   "ns-resize", "nesw-resize", "nwse-resize", "zoom-in", "zoom-out"]

def selections : List (String × String) :=
  [("none", "none"), ("text", "text"), ("all", "all"), ("auto", "auto")]

def resizes : List (String × String) :=
  [("none", "none"), ("y", "vertical"), ("x", "horizontal")]

def changes : List (String × String) :=
  [("auto", "auto"), ("scroll", "scroll-position"), ("contents", "contents"),
   ("transform", "transform")]

/-- Scroll snapping: class name, property and value. -/
def snaps : List (String × String × String) :=
  [("snap-start", "scroll-snap-align", "start"), ("snap-end", "scroll-snap-align", "end"),
   ("snap-center", "scroll-snap-align", "center"),
   ("snap-align-none", "scroll-snap-align", "none"),
   ("snap-normal", "scroll-snap-stop", "normal"), ("snap-always", "scroll-snap-stop", "always"),
   ("snap-none", "scroll-snap-type", "none"),
   ("snap-x", "scroll-snap-type", "x var(--tw-scroll-snap-strictness, proximity)"),
   ("snap-y", "scroll-snap-type", "y var(--tw-scroll-snap-strictness, proximity)"),
   ("snap-both", "scroll-snap-type", "both var(--tw-scroll-snap-strictness, proximity)"),
   ("snap-mandatory", "--tw-scroll-snap-strictness", "mandatory"),
   ("snap-proximity", "--tw-scroll-snap-strictness", "proximity")]

def entries : List Entry :=
  cursors.map (fun name => entry (member "cursor" name) [("cursor", name)]) ++
  [entry "pointer-events-none" [("pointer-events", "none")],
   entry "pointer-events-auto" [("pointer-events", "auto")]] ++
  scaleEntries "select" ["-webkit-user-select", "user-select"] selections ++
  scaleEntries "resize" ["resize"] resizes ++
  [entry "resize" [("resize", "both")],
   entry "appearance-none" [("appearance", "none")],
   entry "appearance-auto" [("appearance", "auto")]] ++
  scaleEntries "will-change" ["will-change"] changes ++
  [entry "scroll-auto" [("scroll-behavior", "auto")],
   entry "scroll-smooth" [("scroll-behavior", "smooth")]] ++
  snaps.map (fun (name, property, value) => entry name [(property, value)]) ++
  [entry "touch-auto" [("touch-action", "auto")],
   entry "touch-none" [("touch-action", "none")],
   entry "touch-manipulation" [("touch-action", "manipulation")],
   entry "table-auto" [("table-layout", "auto")],
   entry "table-fixed" [("table-layout", "fixed")],
   entry "caption-top" [("caption-side", "top")],
   entry "caption-bottom" [("caption-side", "bottom")]]

end AtomicCss.Catalog.Interactivity
