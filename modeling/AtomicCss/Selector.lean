import AtomicCss.Variant.Basic
import AtomicCss.Variant.Token

/-!
# Selectors

The selector of a rule grows from the class of its token: conditions are appended to it, marked ancestors
come in front, authored text is wrapped around both. A pseudo-element is kept aside to stand at the very
end, and so are the queries around the rule, of which the last of each kind counts.

* `Draft.apply` — one variant applied to a selector in the making;
* `Selector.build?` — the selector of a token from its variants.
-/

namespace AtomicCss

structure Draft where
  /-- What stands in front of the element: marked ancestors and siblings. -/
  ancestors : String
  compound : String
  element : Option String
  /-- The media query around the rule. -/
  media : Option MediaQuery
  /-- The container query around the rule. -/
  container : Option String
  deriving DecidableEq, Repr, Inhabited

/-- A finished selector, with the queries around its rule. -/
structure Selector where
  selector : String
  /-- The media query around the rule. -/
  media : Option MediaQuery
  /-- The container query around the rule. -/
  container : Option String
  deriving DecidableEq, Repr, Inhabited

namespace Draft

/-- The draft of a token without variants: its class. -/
def ofToken (token : String) : Draft :=
  { ancestors := "", compound := "." ++ escape token, element := none, media := none,
    container := none }

/-- The selector so far, its pseudo-element apart. -/
def subject (draft : Draft) : String :=
  draft.ancestors ++ draft.compound

/-- Applies a variant. Wrapping takes the ancestors inside. -/
def apply (draft : Draft) : Variant → Draft
  | .element pseudo => { draft with element := some pseudo }
  | .media query => { draft with media := some query }
  | .container query => { draft with container := some query }
  | .condition text => { draft with compound := draft.compound ++ text }
  | .ancestor text => { draft with ancestors := draft.ancestors ++ text }
  | .children => { draft with ancestors := "", compound := ":is(" ++ draft.subject ++ " > *)" }
  | .template pieces =>
    { draft with ancestors := "", compound := draft.subject.intercalate pieces }
  | .ignored => draft

/-- The finished selector: the subject, what the utility appends, the pseudo-element. -/
def finish (draft : Draft) (suffix : Option String) : Selector where
  selector := draft.subject ++ suffix.getD "" ++ draft.element.getD ""
  media := draft.media
  container := draft.container

end Draft

/-- The selector of a token from its variants, `none` if one of them is unknown. The suffix comes from
the base utility. -/
def Selector.build? (theme : Theme) (token : String) (variants : List String)
    (suffix : Option String) : Option Selector :=
  (variants.mapM (Variant.parse? theme)).map fun effects =>
    (effects.foldl Draft.apply (.ofToken token)).finish suffix

end AtomicCss
