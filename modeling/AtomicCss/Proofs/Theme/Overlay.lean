import AtomicCss.Proofs.Ordered.Extension
import AtomicCss.Theme.Basic

/-!
# Overlays of themes

An overlay is laid over a theme category by category and key by key. Laying it over again changes nothing, and two
overlays may be merged beforehand: what a theme comes to does not depend on when its overlays meet.

## The architecture

* **`OrderedMap.LaidOver`**, **`OrderedMap.Merged`** — what one category shows of a theme and an overlay, and of two
  overlays. `laidOver_overlay` and `merged_merge?` say that this is what the operations come to.
* **`Overlay.merge`** — two overlays as one, in which the second one wins.
* **`Theme.overlays_compose`** — the laws of overlays, for all twelve categories at once.
-/

namespace AtomicCss

/-! ## One category -/

namespace OrderedMap

variable {κ ν : Type} [DecidableEq κ]

/-- A category is what another one shows below an overlay. -/
structure LaidOver (below : OrderedMap κ ν) (upper : Option (OrderedMap κ ν)) (result : OrderedMap κ ν) : Prop where
  /-- A key has the overlay's value if that gives it one, and otherwise the value from below. -/
  get? : ∀ key, result.get? key = (valueIn? upper key).or (below.get? key)
  /-- The keys from below come first, as they stood, and the new keys follow in the overlay's order. -/
  keys : result.keys = below.keys ++ (keysIn upper).filter (· ∉ below.keys)
  /-- An overlay that is not given leaves the category as it is. -/
  unchanged : upper = none → result = below

theorem laidOver_overlay (below : OrderedMap κ ν) (upper : Option (OrderedMap κ ν)) :
    LaidOver below upper (below.overlay upper) where
  get? := below.get?_overlay upper
  keys := below.keys_overlay upper
  unchanged := by
    rintro rfl
    rfl

/-- The overrides of a category are those of two overlays, of which the second one wins. -/
structure Merged (first second merged : Option (OrderedMap κ ν)) : Prop where
  value : ∀ key, valueIn? merged key = (valueIn? second key).or (valueIn? first key)
  keys : keysIn merged = keysIn first ++ (keysIn second).filter (· ∉ keysIn first)
  /-- A category is left out if both overlays leave it out, and only then. -/
  given : merged = none ↔ first = none ∧ second = none

theorem merged_merge? (first second : Option (OrderedMap κ ν)) : Merged first second (merge? first second) where
  value := valueIn?_merge? first second
  keys := keysIn_merge? first second
  given := by cases first <;> cases second <;> simp [merge?]

end OrderedMap

open OrderedMap (LaidOver Merged merge? laidOver_overlay merged_merge? overlay_overlay_self overlay_merge?)

/-! ## All categories -/

namespace Overlay

/-- Two overlays as one, in which the second one wins. -/
def merge (first second : Overlay) : Overlay where
  colors := merge? first.colors second.colors
  spacing := second.spacing.or first.spacing
  radius := merge? first.radius second.radius
  text := merge? first.text second.text
  fonts := merge? first.fonts second.fonts
  fontWeights := merge? first.fontWeights second.fontWeights
  breakpoints := merge? first.breakpoints second.breakpoints
  shadows := merge? first.shadows second.shadows
  zIndex := merge? first.zIndex second.zIndex
  easings := merge? first.easings second.easings
  durations := merge? first.durations second.durations
  containers := merge? first.containers second.containers

theorem scale?_merge (first second : Overlay) (category : Category) :
    (first.merge second).scale? category = merge? (first.scale? category) (second.scale? category) := by
  cases category <;> rfl

end Overlay

namespace Theme

variable (theme : Theme)

theorem extend_extend_self (overlay : Overlay) : (theme.extend overlay).extend overlay = theme.extend overlay := by
  have hspacing : overlay.spacing.or (overlay.spacing.or theme.spacing) = overlay.spacing.or theme.spacing := by
    rw [← Option.or_assoc, Option.or_self]
  simp only [extend, overlay_overlay_self, hspacing]

theorem extend_merge (first second : Overlay) :
    (theme.extend first).extend second = theme.extend (first.merge second) := by
  simp only [extend, Overlay.merge, overlay_merge?, Option.or_assoc]

/-- **The laws of overlays.** In each of the twelve categories the overlay's values show, and the theme's own where
the overlay gives none; the theme's keys come first, in their order, and the overlay's new ones follow in theirs; and a
category that the overlay leaves out is unchanged. Laying an overlay over a theme twice is laying it once, and laying
two of them one after the other is laying their merge, which has the values and the keys of both, the second one
winning. -/
theorem overlays_compose :
    (∀ overlay : Overlay,
      (∀ category, LaidOver (theme.scale category) (overlay.scale? category)
        ((theme.extend overlay).scale category)) ∧
      LaidOver theme.text overlay.text (theme.extend overlay).text ∧
      (theme.extend overlay).spacing = overlay.spacing.or theme.spacing ∧
      (theme.extend overlay).extend overlay = theme.extend overlay) ∧
    ∀ first second : Overlay,
      (theme.extend first).extend second = theme.extend (first.merge second) ∧
      (∀ category, Merged (first.scale? category) (second.scale? category)
        ((first.merge second).scale? category)) ∧
      Merged first.text second.text (first.merge second).text ∧
      (first.merge second).spacing = second.spacing.or first.spacing := by
  refine ⟨fun overlay => ⟨fun category => ?_, laidOver_overlay _ _, rfl, theme.extend_extend_self overlay⟩,
    fun first second => ⟨theme.extend_merge first second, fun category => ?_, merged_merge? _ _, rfl⟩⟩
  · rw [scale_extend]
    exact laidOver_overlay _ _
  · rw [Overlay.scale?_merge]
    exact merged_merge? _ _

/-- A key of all three layers keeps its place and has the uppermost value; a new key goes last. -/
example :
    let theme : Theme := { colors := OrderedMap.ofList [("ink", "#111"), ("paper", "#eee")] }
    let first : Overlay := { colors := some (OrderedMap.ofList [("brand", "#00f"), ("ink", "#222")]) }
    let second : Overlay := { colors := some (OrderedMap.ofList [("ink", "#333"), ("brand", "#0f0")]) }
    ((theme.extend first).extend second).colors.entries = [("ink", "#333"), ("paper", "#eee"), ("brand", "#0f0")] := by
  decide

end Theme

end AtomicCss
