import AtomicCss.Catalog.Entry
import AtomicCss.Theme.Scale

/-!
# Transition, animation and transform utilities

Transitions and their timing, animations with the keyframes that they need, translation, rotation and
scaling.

* `Keyframes.text?` — the written form of a built-in animation.
-/

namespace AtomicCss

/-! ## Keyframes -/

namespace Keyframes

/-- The built-in animations: a name, and the selectors of each frame with its declarations. -/
def table : List (String × List (String × List (String × String))) :=
  [("spin", [("to", [("transform", "rotate(360deg)")])]),
   ("ping", [("75%, 100%", [("transform", "scale(2)"), ("opacity", "0")])]),
   ("pulse", [("50%", [("opacity", "0.5")])]),
   ("bounce",
     [("0%, 100%",
       [("transform", "translateY(-25%)"),
        ("animation-timing-function", "cubic-bezier(0.8, 0, 1, 1)")]),
      ("50%",
       [("transform", "none"), ("animation-timing-function", "cubic-bezier(0, 0, 0.2, 1)")])])]

/-- The written form of one frame. -/
def frameText (frame : String × List (String × String)) : String :=
  frame.1 ++ " " ++ braced (renderBody (Declaration.ofPairs frame.2))

/-- The written form of a built-in animation, on one line. -/
def text? (name : String) : Option String :=
  (table.find? fun k => k.1 == name).map fun (name, frames) =>
    "@keyframes " ++ name ++ " " ++ braced (" ".intercalate (frames.map frameText))

end Keyframes

namespace Catalog.Motion

/-! ## Tables -/

/-- The timing function of a transition. -/
def timing : String :=
  "var(--default-transition-timing-function, cubic-bezier(0.4, 0, 0.2, 1))"

def duration : String :=
  "var(--default-transition-duration, 150ms)"

def transitions : List (String × String) :=
  [("transition",
     "color, background-color, border-color, outline-color, text-decoration-color, " ++
       "fill, stroke, --tw-gradient-from, --tw-gradient-to, opacity, box-shadow, " ++
       "transform, translate, scale, rotate, filter, backdrop-filter"),
   ("transition-all", "all"),
   ("transition-colors",
     "color, background-color, border-color, outline-color, text-decoration-color, " ++
       "fill, stroke, --tw-gradient-from, --tw-gradient-to"),
   ("transition-opacity", "opacity"),
   ("transition-shadow", "box-shadow"),
   ("transition-transform", "transform, translate, scale, rotate")]

def delays : List String :=
  ["0", "75", "100", "150", "200", "300", "500", "700", "1000"]

def animations : List (String × String × String) :=
  [("spin", "spin 1s linear infinite", "spin"),
   ("ping", "ping 1s cubic-bezier(0, 0, 0.2, 1) infinite", "ping"),
   ("pulse", "pulse 2s cubic-bezier(0.4, 0, 0.6, 1) infinite", "pulse"),
   ("bounce", "bounce 1s infinite", "bounce")]

def rotations : List String :=
  ["0", "1", "2", "3", "6", "12", "45", "90", "180"]

def scales : List String :=
  ["0", "50", "75", "90", "95", "100", "105", "110", "125", "150"]

/-- Steps of the spacing scale to translate by. -/
def translateSteps : List String :=
  ["0", "0.5", "1", "2", "3", "4", "5", "6", "8", "10", "12", "16"]

def origins : List (String × String) :=
  [("center", "center"), ("top", "top"), ("top-right", "top right"), ("right", "right"),
   ("bottom-right", "bottom right"), ("bottom", "bottom"), ("bottom-left", "bottom left"),
   ("left", "left"), ("top-left", "top left")]

def axes : List String :=
  ["x", "y"]

/-! ## Transitions and animations -/

def transition (name properties : String) : Entry :=
  entry name
    [("transition-property", properties), ("transition-timing-function", timing),
     ("transition-duration", duration)]

/-- Transitions with their durations, delays and timing functions. -/
def transitionEntries : List Entry :=
  transitions.map (fun (name, properties) => transition name properties) ++
  [entry "transition-none" [("transition-property", "none")]] ++
  Scale.durations.map (fun (name, _) =>
    entry (member "duration" name) [("transition-duration", "var(--duration-" ++ name ++ ")")]) ++
  delays.map (fun n => entry (member "delay" n) [("transition-delay", n ++ "ms")]) ++
  Scale.easings.map (fun (name, _) =>
    entry (member "ease" name) [("transition-timing-function", "var(--ease-" ++ name ++ ")")]) ++
  [entry "ease-linear" [("transition-timing-function", "linear")]]

def animationEntries : List Entry :=
  animations.map (fun (name, value, keyframes) =>
    (member "animate" name,
      { declarations := [.property "animation" value], keyframes := some keyframes })) ++
  [entry "animate-none" [("animation", "none")]]

/-! ## Transforms -/

def translate (name axis value : String) : Entry :=
  entry name [("--tw-translate-" ++ axis, value), ("translate", translateValue)]

/-- Translations by one step along an axis: forth and, for a step other than zero, back. -/
def translateStep (step axis : String) : List Entry :=
  translate ("translate-" ++ axis ++ "-" ++ step) axis (spacingValue step) ::
    if step != "0" then
      [translate ("-translate-" ++ axis ++ "-" ++ step) axis (spacingValue ("-" ++ step))]
    else []

/-- Translations by parts of the element. -/
def translateParts (axis : String) : List Entry :=
  [translate ("translate-" ++ axis ++ "-full") axis "100%",
   translate ("-translate-" ++ axis ++ "-full") axis "-100%",
   translate ("translate-" ++ axis ++ "-1/2") axis "50%",
   translate ("-translate-" ++ axis ++ "-1/2") axis "-50%"]

/-- A rotation and, unless by zero, its inverse. -/
def rotation (degrees : String) : List Entry :=
  entry (member "rotate" degrees) [("rotate", degrees ++ "deg")] ::
    if degrees != "0" then
      [entry ("-rotate-" ++ degrees) [("rotate", "-" ++ degrees ++ "deg")]]
    else []

/-- Scaling on both axes and on each. -/
def scaling (percent : String) : List Entry :=
  let value := percent ++ "%"
  [entry (member "scale" percent)
     [("--tw-scale-x", value), ("--tw-scale-y", value), ("scale", scaleValue)],
   entry (member "scale-x" percent) [("--tw-scale-x", value), ("scale", scaleValue)],
   entry (member "scale-y" percent) [("--tw-scale-y", value), ("scale", scaleValue)]]

def transformEntries : List Entry :=
  translateSteps.flatMap (fun step => axes.flatMap (translateStep step)) ++
  axes.flatMap translateParts ++ rotations.flatMap rotation ++ scales.flatMap scaling ++
  scaleEntries "origin" ["transform-origin"] origins ++
  [entry "transform-none" [("transform", "none")]]

/-- All transition, animation and transform utilities. -/
def entries : List Entry :=
  transitionEntries ++ animationEntries ++ transformEntries

end Catalog.Motion

end AtomicCss
