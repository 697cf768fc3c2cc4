import AtomicCss.Css.Rule
import AtomicCss.Theme.Basic
import AtomicCss.Variant.Condition
import AtomicCss.Variant.Escape

/-!
# Variants

What one variant does to a rule depends on its text and the theme alone, so it is read first and applied
later: `Variant.parse?` names the effect and `Draft.apply` carries it out.

Names are tried in a fixed order. Built-in names come first, then text in brackets, then the forms with a
stem (`group-`, `peer-`, `has-`, `not-`, `max-`, `min-`, `@`), and breakpoints of the theme last.

* `Variant` — the effects;
* `Variant.parse?` — the effect of a variant, by its text and the theme.
-/

namespace AtomicCss

/-! ## Tables -/

def pseudoElements : List (String × String) :=
  [("before", "::before"), ("after", "::after"), ("placeholder", "::placeholder"),
   ("file", "::file-selector-button"), ("marker", "::marker"), ("selection", "::selection"),
   ("first-line", "::first-line"), ("first-letter", "::first-letter"), ("backdrop", "::backdrop")]

/-- Variants that are fixed media queries. -/
def mediaVariants : List (String × String) :=
  [("dark", "@media (prefers-color-scheme: dark)"), ("print", "@media print"),
   ("motion-safe", "@media (prefers-reduced-motion: no-preference)"),
   ("motion-reduce", "@media (prefers-reduced-motion: reduce)"),
   ("contrast-more", "@media (prefers-contrast: more)"),
   ("contrast-less", "@media (prefers-contrast: less)"),
   ("portrait", "@media (orientation: portrait)"), ("landscape", "@media (orientation: landscape)"),
   ("forced-colors", "@media (forced-colors: active)")]

/-- The places in the order of media blocks that belong to a name. -/
def mediaPriorities : List (String × Nat) :=
  [("print", 0), ("sm", 1), ("md", 2), ("lg", 3), ("xl", 4), ("2xl", 5), ("3xl", 6)]

/-- The place of every other media block, behind those with a name. -/
def lastPriority : Nat := 7

/-- The place of the media block of a variant. -/
def mediaPriority (variant : String) : Nat :=
  (mediaPriorities.lookup variant).getD lastPriority

/-- The media query for a minimum width. -/
def minWidthQuery (width : String) : String :=
  "@media (min-width: " ++ width ++ ")"

/-! ## Effects -/

/-- What a variant does to a rule. -/
inductive Variant where
  /-- Addresses a pseudo-element, at the very end of the selector. -/
  | element (pseudo : String)
  /-- Puts the rule under a media query. -/
  | media (query : MediaQuery)
  /-- Puts the rule under a container query. -/
  | container (query : String)
  /-- Adds a condition on the element. -/
  | condition (text : String)
  /-- Adds a condition on something in front of the element, ending in a combinator. -/
  | ancestor (text : String)
  /-- Addresses the children of the element. -/
  | children
  /-- Writes the selector so far into authored text: the pieces around its places. -/
  | template (pieces : List String)
  | ignored
  deriving DecidableEq, Repr, Inhabited

namespace Variant

/-- A media query behind all that have a name. -/
def unnamedMedia (query : String) : Variant :=
  media ⟨query, lastPriority⟩

/-- The state and the name of a marked ancestor or sibling: `hover/sidebar` is the state `hover` of the
one named `sidebar`. What follows the last slash is no name if it is empty or closes a bracket. -/
def named (variant : String) : String × Option String :=
  match Text.cutLast? '/' variant with
  | some (state, name) =>
    if !name.isEmpty && !Text.contains "]" name then (state, some name) else (variant, none)
  | none => (variant, none)

/-- A condition on a marked ancestor or sibling: `mark` is its class, `combinator` what stands between it
and the element. -/
def marked? (mark combinator variant : String) : Option Variant :=
  let (state, name) := named variant
  (condition? state).map fun cond =>
    match name with
    | some name => ancestor ("." ++ mark ++ "\\/" ++ escape name ++ cond ++ combinator)
    | none => ancestor ("." ++ mark ++ cond ++ combinator)

/-- A variant in brackets: a query if it begins with an at-sign, and otherwise a text with places for the
selector so far, marked by ampersands. -/
def authored? (raw : String) : Option Variant :=
  let raw := Text.decodeSpaces raw
  if Text.startsWith "@" raw then some (unnamedMedia raw)
  else if Text.contains "&" raw then some (template (Text.pieces '&' raw))
  else none

/-- What an element must have inside. -/
def has? (variant : String) : Option Variant :=
  ((bracketed? variant).map Text.decodeSpaces).or (condition? variant) |>.map fun cond =>
    condition (":has(" ++ cond ++ ")")

/-- What must not hold. The dark color scheme has a query of its own; the other media variants and the
breakpoints cannot be negated and are ignored. -/
def not? (theme : Theme) (variant : String) : Option Variant :=
  if variant == "dark" then some (unnamedMedia "@media not (prefers-color-scheme: dark)")
  else if (mediaVariants.lookup variant).isSome || (theme.breakpoint? variant).isSome then
    some ignored
  else (condition? variant).map fun cond => condition (":not(" ++ cond ++ ")")

/-- A width below one in brackets or below a breakpoint. -/
def max? (theme : Theme) (variant : String) : Option Variant :=
  ((bracketed? variant).map Text.decodeSpaces).or (theme.breakpoint? variant) |>.map fun width =>
    unnamedMedia ("@media not all and (min-width: " ++ width ++ ")")

/-- A width from one in brackets on. -/
def min? (variant : String) : Option Variant :=
  (bracketed? variant).map fun raw => unnamedMedia (minWidthQuery (Text.decodeSpaces raw))

/-- The container query of a size: one in brackets, the negation of one behind `max-`, or one by name. -/
def containerQuery? (theme : Theme) (size : String) : Option String :=
  match bracketed? size with
  | some raw => some ("@container (min-width: " ++ Text.decodeSpaces raw ++ ")")
  | none =>
    match Text.after? "max-" size with
    | some name =>
      (theme.container? name).map fun width => "@container not (min-width: " ++ width ++ ")"
    | none => (theme.container? size).map fun width => "@container (min-width: " ++ width ++ ")"

/-- A variant with a stem, or else a breakpoint. -/
def stemmed? (theme : Theme) (variant : String) : Option Variant :=
  match Text.after? "group-" variant with
  | some rest => marked? "group" " " rest
  | none =>
  match Text.after? "peer-" variant with
  | some rest => marked? "peer" " ~ " rest
  | none =>
  match Text.after? "has-" variant with
  | some rest => has? rest
  | none =>
  match Text.after? "not-" variant with
  | some rest => not? theme rest
  | none =>
  match Text.after? "max-" variant with
  | some rest => max? theme rest
  | none =>
  match Text.after? "min-" variant with
  | some rest => min? rest
  | none =>
  match Text.after? "@" variant with
  | some size => (containerQuery? theme size).map container
  | none =>
    (theme.breakpoint? variant).map fun width => media ⟨minWidthQuery width, mediaPriority variant⟩

/-- What a variant does, `none` for an unknown one. Text in brackets is no condition on its own. -/
def parse? (theme : Theme) (variant : String) : Option Variant :=
  match pseudoElements.lookup variant with
  | some pseudo => some (element pseudo)
  | none =>
  match mediaVariants.lookup variant with
  | some query => some (media ⟨query, mediaPriority variant⟩)
  | none =>
  match (condition? variant).filter fun _ => !Text.startsWith "[" variant with
  | some cond => some (condition cond)
  | none =>
    if variant == "*" then some children
    else
      match bracketed? variant with
      | some raw => authored? raw
      | none => stemmed? theme variant

end Variant

end AtomicCss
