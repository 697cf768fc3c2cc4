import AtomicCss.Text.Authored
import AtomicCss.Text.Blank
import AtomicCss.Text.Cut
import AtomicCss.Text.Identifier
import AtomicCss.Text.Nesting

/-!
# Authored values

A dynamic utility carries its value in the class name: any CSS value in square brackets, or the name of a
custom property in parentheses. A value becomes part of a declaration, so it is taken only if it cannot
end that declaration: it may not be blank, hold a delimiter or leave a bracket open.

* `arbitrary?` — the value that authored text in brackets stands for;
* `reference?` — `(--name)` as a reference to the custom property.
-/

namespace AtomicCss.Dynamic

/-- The value that authored text stands for, `none` if the text is blank, holds a delimiter or has
unbalanced brackets. An address keeps its underscores, in all other text they stand for spaces. -/
def arbitrary? (raw : String) : Option String :=
  if Text.isAllBlank raw || Text.breaksOut raw || !Text.isBalanced raw then none
  else if Text.startsWith "url(" raw then some raw
  else some (Text.decodeSpaces raw)

/-- The name of a custom property in parentheses, as a reference to that property. -/
def reference? (s : String) : Option String :=
  ((Text.enclosed? "(--" ")" s).filter Text.isIdentifier).map fun name => "var(--" ++ name ++ ")"

end AtomicCss.Dynamic
