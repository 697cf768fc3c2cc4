import AtomicCss.BaseLayer
import AtomicCss.Compiler
import AtomicCss.Markup
import AtomicCss.Theme.Layer

/-!
# Complete stylesheets

A stylesheet begins by naming its layers in order. Behind that come, on request, the base layer and the
theme layer, and then the utilities and components of the page.

* `Source.tokens` — the class tokens of a page;
* `Compiler.stylesheet` — the stylesheet of a page;
* `Compiler.fullStylesheet` — the same with the base and theme layers.
-/

namespace AtomicCss

inductive Source where
  | markup (text : String)
  /-- Class lists, each holding any number of tokens. -/
  | classes (lists : List String)
  deriving DecidableEq, Repr, Inhabited

/-- The distinct class tokens of a source, in the order in which they first come. -/
def Source.tokens : Source → List String
  | markup text => Markup.classes text
  | classes lists => distinct (lists.flatMap Text.words)

/-- The first line of every stylesheet. -/
def layerOrder : String :=
  "@layer theme, base, components, utilities;"

namespace Compiler

/-- The utilities and components of a page. -/
def pageBody (compiler : Compiler) (source : Source) : String :=
  (compiler.compile source.tokens).renderBody

def stylesheet (compiler : Compiler) (source : Source) : String :=
  layerOrder ++ "\n" ++ compiler.pageBody source

/-- The stylesheet of a page with the base and theme layers. -/
def fullStylesheet (compiler : Compiler) (source : Source) : String :=
  layerOrder ++ "\n" ++ baseLayer ++ compiler.theme.layer ++ compiler.pageBody source

/-- The compiler with the full catalog, the default theme and the built-in components. -/
def standard : Compiler where
  catalog := Catalog.standard
  theme := Theme.standard
  library := Library.builtin

end Compiler

end AtomicCss
