import AtomicCss.Catalog
import AtomicCss.Component.Library
import AtomicCss.Dynamic
import AtomicCss.Selector
import AtomicCss.Sheet

/-!
# From class tokens to a stylesheet

A token is a list of variants and a base utility. The base is looked up in the catalog, read as a dynamic
utility, or taken for a color of the theme; the variants make the selector. A token that comes to nothing
is dropped, but it may still ask for a component.

* `Compiler.resolve?` — the rule of a token;
* `Compiler.compile` — the sheet of a list of tokens;
* `Compiler.unresolved` — the tokens that have no rule.
-/

namespace AtomicCss

/-- What class tokens are compiled with. -/
structure Compiler where
  /-- The utilities with a fixed meaning. -/
  catalog : Catalog
  theme : Theme
  library : Library

namespace Compiler

/-! ## One token -/

/-- A color of the theme, with an opacity or without. -/
def themeColorValue (name : String) (percentage : Option String) : String :=
  match percentage with
  | some percentage => Dynamic.colorMix (Palette.reference name) percentage
  | none => Palette.reference name

/-- The declarations of a color utility whose color is one of the theme, with an opacity or without. -/
def themeColor? (theme : Theme) (base : String) : Option (List Declaration) := do
  let (properties, rest) ← ColorFamily.split? base
  let (name, percentage) :=
    match Dynamic.splitOpacity? rest with
    | some (name, percentage) => (name, some percentage)
    | none => (rest, none)
  if theme.colors.contains name then
    some (Declaration.each properties (themeColorValue name percentage))
  else none

/-- What a base utility stands for: its entry in the catalog, or else what it carries with it, or else a
color of the theme. -/
def utility? (compiler : Compiler) (base : String) : Option Utility :=
  (compiler.catalog.search base).or <|
    ((Dynamic.resolve? base).or (themeColor? compiler.theme base)).map fun declarations =>
      { declarations }

/-- The declarations of a utility, marked important on request. -/
def declarationsOf (utility : Utility) (important : Bool) : List Declaration :=
  if important then utility.declarations.map Declaration.important else utility.declarations

/-- The rule of a token, `none` if its base utility or one of its variants is unknown. -/
def resolve? (compiler : Compiler) (token : String) : Option Rule := do
  let parsed := Token.parse token
  let (base, important) := stripImportant parsed.base
  if base.isEmpty then none
  else
    let utility ← compiler.utility? base
    let selector ← Selector.build? compiler.theme token parsed.variants utility.suffix
    some
      { selector := selector.selector
        declarations := declarationsOf utility important
        media := selector.media
        container := selector.container
        keyframes := utility.keyframes }

/-- The component that a token asks for. -/
def component? (compiler : Compiler) (token : String) : Option String :=
  compiler.library.matchBase? (stripImportant (Token.parse token).base).1

/-! ## All tokens -/

/-- The rules of the distinct tokens. -/
def rules (compiler : Compiler) (tokens : List String) : List Rule :=
  (distinct tokens).filterMap compiler.resolve?

/-- The names of the components that the tokens ask for, each once. -/
def componentNames (compiler : Compiler) (tokens : List String) : List String :=
  distinct ((distinct tokens).filterMap compiler.component?)

/-- The sheet of a list of tokens. -/
def compile (compiler : Compiler) (tokens : List String) : Sheet :=
  { Sheet.ofRules (compiler.rules tokens) with
    components := (compiler.componentNames tokens).filterMap compiler.library.get? }

/-- The distinct tokens that have no rule. -/
def unresolved (compiler : Compiler) (tokens : List String) : List String :=
  (distinct tokens).filter fun token => (compiler.resolve? token).isNone

end Compiler

end AtomicCss
