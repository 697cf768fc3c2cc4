import AtomicCss.Color.Palette
import AtomicCss.Theme.Scale

/-!
# Themes

A theme names the values of a design: ten categories of plain values, a type scale, and the unit of the
spacing scale. It is written out as custom properties, and its breakpoints and containers are variants.

The overrides of a theme are an `Overlay`: it may leave out any category, and the entries of a category that
it gives win over those of the theme, key by key.

* `Theme.scale` — one category of plain values;
* `Theme.extend` — a theme with an overlay laid over it;
* `Theme.breakpoint?`, `Theme.container?` — sizes by name, with the default scale behind them.
-/

namespace AtomicCss

/-- One entry of the type scale. -/
structure TextSize where
  size : String
  lineHeight : String
  deriving DecidableEq, Repr, Inhabited

/-- The categories of plain values, in the order in which they are checked. -/
inductive Category where
  | colors | radius | fonts | fontWeights | breakpoints | shadows | zIndex | easings | durations
  | containers
  deriving DecidableEq, Repr, Inhabited

namespace Category

/-- All categories, in the order in which they are checked. -/
def all : List Category :=
  [colors, radius, fonts, fontWeights, breakpoints, shadows, zIndex, easings, durations, containers]

/-- The name of a category in theme files and messages. -/
def name : Category → String
  | colors => "colors"
  | radius => "radius"
  | fonts => "fonts"
  | fontWeights => "fontWeights"
  | breakpoints => "breakpoints"
  | shadows => "shadows"
  | zIndex => "zIndex"
  | easings => "easings"
  | durations => "durations"
  | containers => "containers"

/-- What the custom properties of a category begin with, dashes apart. -/
def stem : Category → String
  | colors => "color"
  | radius => "radius"
  | fonts => "font"
  | fontWeights => "font-weight"
  | breakpoints => "breakpoint"
  | shadows => "shadow"
  | zIndex => "z"
  | easings => "ease"
  | durations => "duration"
  | containers => "container"

def ofName? (s : String) : Option Category :=
  all.find? fun c => c.name == s

end Category

/-- Design values by category, each in the order in which it is written out. -/
structure Theme where
  colors : OrderedMap String String := ∅
  /-- The unit of the spacing scale. -/
  spacing : Option String := none
  radius : OrderedMap String String := ∅
  text : OrderedMap String TextSize := ∅
  fonts : OrderedMap String String := ∅
  fontWeights : OrderedMap String String := ∅
  breakpoints : OrderedMap String String := ∅
  shadows : OrderedMap String String := ∅
  zIndex : OrderedMap String String := ∅
  easings : OrderedMap String String := ∅
  durations : OrderedMap String String := ∅
  containers : OrderedMap String String := ∅

/-- Overrides of a theme. A category that is not given leaves the theme's own as it is. -/
structure Overlay where
  colors : Option (OrderedMap String String) := none
  spacing : Option String := none
  radius : Option (OrderedMap String String) := none
  text : Option (OrderedMap String TextSize) := none
  fonts : Option (OrderedMap String String) := none
  fontWeights : Option (OrderedMap String String) := none
  breakpoints : Option (OrderedMap String String) := none
  shadows : Option (OrderedMap String String) := none
  zIndex : Option (OrderedMap String String) := none
  easings : Option (OrderedMap String String) := none
  durations : Option (OrderedMap String String) := none
  containers : Option (OrderedMap String String) := none

namespace Overlay

/-- The overrides of a category of plain values, if it is given. -/
def scale? (overlay : Overlay) : Category → Option (OrderedMap String String)
  | .colors => overlay.colors
  | .radius => overlay.radius
  | .fonts => overlay.fonts
  | .fontWeights => overlay.fontWeights
  | .breakpoints => overlay.breakpoints
  | .shadows => overlay.shadows
  | .zIndex => overlay.zIndex
  | .easings => overlay.easings
  | .durations => overlay.durations
  | .containers => overlay.containers

/-- The overlay with one category replaced. -/
def withScale (overlay : Overlay) (category : Category) (entries : Option (OrderedMap String String)) : Overlay :=
  match category with
  | .colors => { overlay with colors := entries }
  | .radius => { overlay with radius := entries }
  | .fonts => { overlay with fonts := entries }
  | .fontWeights => { overlay with fontWeights := entries }
  | .breakpoints => { overlay with breakpoints := entries }
  | .shadows => { overlay with shadows := entries }
  | .zIndex => { overlay with zIndex := entries }
  | .easings => { overlay with easings := entries }
  | .durations => { overlay with durations := entries }
  | .containers => { overlay with containers := entries }

/-- Replacing a category shows in that category and no other. -/
theorem scale?_withScale (overlay : Overlay) (category other : Category)
    (entries : Option (OrderedMap String String)) :
    (overlay.withScale category entries).scale? other =
      if other = category then entries else overlay.scale? other := by
  cases category <;> cases other <;> rfl

end Overlay

namespace Theme

def empty : Theme :=
  {}

def standard : Theme where
  colors := Palette.defaults
  spacing := some Scale.spacing
  radius := OrderedMap.ofList Scale.radius
  text := OrderedMap.ofList <| Scale.text.map fun (name, size, lineHeight) => (name, ⟨size, lineHeight⟩)
  fonts := OrderedMap.ofList Scale.fonts
  fontWeights := OrderedMap.ofList Scale.fontWeights
  breakpoints := OrderedMap.ofList Scale.breakpoints
  shadows := OrderedMap.ofList Scale.shadows
  zIndex := OrderedMap.ofList Scale.zIndex
  easings := OrderedMap.ofList Scale.easings
  durations := OrderedMap.ofList Scale.durations
  containers := OrderedMap.ofList Scale.containers

def scale (theme : Theme) : Category → OrderedMap String String
  | .colors => theme.colors
  | .radius => theme.radius
  | .fonts => theme.fonts
  | .fontWeights => theme.fontWeights
  | .breakpoints => theme.breakpoints
  | .shadows => theme.shadows
  | .zIndex => theme.zIndex
  | .easings => theme.easings
  | .durations => theme.durations
  | .containers => theme.containers

/-- The theme with an overlay laid over it: in a category that the overlay gives, a key of both keeps its place
and takes the overlay's value, and a new key goes last. A spacing unit replaces the old one. -/
def extend (theme : Theme) (overlay : Overlay) : Theme where
  colors := theme.colors.overlay overlay.colors
  spacing := overlay.spacing.or theme.spacing
  radius := theme.radius.overlay overlay.radius
  text := theme.text.overlay overlay.text
  fonts := theme.fonts.overlay overlay.fonts
  fontWeights := theme.fontWeights.overlay overlay.fontWeights
  breakpoints := theme.breakpoints.overlay overlay.breakpoints
  shadows := theme.shadows.overlay overlay.shadows
  zIndex := theme.zIndex.overlay overlay.zIndex
  easings := theme.easings.overlay overlay.easings
  durations := theme.durations.overlay overlay.durations
  containers := theme.containers.overlay overlay.containers

/-- The minimum width of a breakpoint: the theme's own, or else that of the default scale. -/
def breakpoint? (theme : Theme) (name : String) : Option String :=
  (theme.breakpoints.get? name).or (Scale.breakpoints.lookup name)

/-- The minimum width of a container size: the theme's own, or else that of the default scale. -/
def container? (theme : Theme) (name : String) : Option String :=
  (theme.containers.get? name).or (Scale.containers.lookup name)

/-! ## Small facts -/

theorem scale_extend (theme : Theme) (overlay : Overlay) (category : Category) :
    (theme.extend overlay).scale category = (theme.scale category).overlay (overlay.scale? category) := by
  cases category <;> rfl

end Theme

end AtomicCss
