import AtomicCss.Catalog.Entry
import AtomicCss.Dynamic.Template

/-!
# Families that take any value

The part of a dynamic utility in front of its value names a family. Apart from the spacing families, whose
table is shared with the catalog, the families are listed here with what they set.

* `templates` — families with one meaning;
* `widths` — what the color families set when the value is no color;
* `typedTemplates` — what a family sets when a type hint stands in front of the value;
* `negatable` — families that accept a minus sign in front.
-/

namespace AtomicCss.Dynamic

/-! ## Templates that occur more than once -/

/-- A ring is a shadow without blur, in the color of the ring utilities. -/
def ringTemplate : Template :=
  [.around "box-shadow" "0 0 0 " " var(--tw-ring-color, currentColor)"]

/-- At most the given number of lines. -/
def lineClampTemplate : Template :=
  [.fixed "overflow" "hidden", .fixed "display" "-webkit-box",
   .fixed "-webkit-box-orient" "vertical", .whole "-webkit-line-clamp"]

/-- A translation along the axis that a custom property stands for. -/
def translateTemplate (axis : String) : Template :=
  [.whole axis, .fixed "translate" Catalog.translateValue]

/-! ## Tables -/

/-- Families that set a single property to the value. -/
def plainFamilies : List (String × String) :=
  [("rounded", "border-radius"), ("rounded-tl", "border-top-left-radius"),
   ("rounded-tr", "border-top-right-radius"), ("rounded-br", "border-bottom-right-radius"),
   ("rounded-bl", "border-bottom-left-radius"), ("shadow", "box-shadow"), ("opacity", "opacity"),
   ("z", "z-index"), ("order", "order"), ("flex", "flex"), ("grow", "flex-grow"),
   ("shrink", "flex-shrink"), ("grid-cols", "grid-template-columns"),
   ("grid-rows", "grid-template-rows"), ("col", "grid-column"), ("row", "grid-row"),
   ("auto-cols", "grid-auto-columns"), ("auto-rows", "grid-auto-rows"), ("columns", "columns"),
   ("aspect", "aspect-ratio"), ("object", "object-position"), ("content", "content"),
   ("tracking", "letter-spacing"), ("list", "list-style-type"),
   ("underline-offset", "text-underline-offset"), ("outline-offset", "outline-offset"),
   ("duration", "transition-duration"), ("delay", "transition-delay"),
   ("ease", "transition-timing-function"), ("transition", "transition-property"),
   ("animate", "animation"), ("rotate", "rotate"), ("scale", "scale"),
   ("origin", "transform-origin"), ("cursor", "cursor"), ("will-change", "will-change")]

/-- Families that set several properties, or put the value inside other text. -/
def composedFamilies : List (String × Template) :=
  [("rounded-t", .each ["border-top-left-radius", "border-top-right-radius"]),
   ("rounded-r", .each ["border-top-right-radius", "border-bottom-right-radius"]),
   ("rounded-b", .each ["border-bottom-right-radius", "border-bottom-left-radius"]),
   ("rounded-l", .each ["border-top-left-radius", "border-bottom-left-radius"]),
   ("translate-x", translateTemplate "--tw-translate-x"),
   ("translate-y", translateTemplate "--tw-translate-y"),
   ("blur", [.around "filter" "blur(" ")"]),
   ("brightness", [.around "filter" "brightness(" ")"]),
   ("backdrop-blur", [.around "backdrop-filter" "blur(" ")"]), ("line-clamp", lineClampTemplate)]

/-- Families with one meaning, beyond the spacing families. -/
def templates : List (String × Template) :=
  plainFamilies.map (fun (family, property) => (family, [.whole property])) ++ composedFamilies

/-- What the color families set when the value is no color. -/
def widths : List (String × Template) :=
  [("border", [.whole "border-width"]), ("border-x", [.whole "border-inline-width"]),
   ("border-y", [.whole "border-block-width"]), ("border-t", [.whole "border-top-width"]),
   ("border-r", [.whole "border-right-width"]), ("border-b", [.whole "border-bottom-width"]),
   ("border-l", [.whole "border-left-width"]), ("outline", [.whole "outline-width"]),
   ("decoration", [.whole "text-decoration-thickness"]), ("stroke", [.whole "stroke-width"]),
   ("fill", [.whole "fill"]), ("text", [.whole "font-size"]), ("ring", ringTemplate)]

/-- What a family sets when a type hint stands in front of the value, by family and hint. -/
def typedTemplates : List ((String × String) × Template) :=
  [(("bg", "color"), [.whole "background-color"]), (("bg", "image"), [.whole "background-image"]),
   (("bg", "url"), [.whole "background-image"]), (("bg", "size"), [.whole "background-size"]),
   (("bg", "length"), [.whole "background-size"]),
   (("bg", "position"), [.whole "background-position"]), (("text", "color"), [.whole "color"]),
   (("text", "length"), [.whole "font-size"]), (("text", "size"), [.whole "font-size"]),
   (("border", "color"), [.whole "border-color"]), (("border", "length"), [.whole "border-width"]),
   (("outline", "color"), [.whole "outline-color"]),
   (("outline", "length"), [.whole "outline-width"]),
   (("decoration", "color"), [.whole "text-decoration-color"]),
   (("decoration", "length"), [.whole "text-decoration-thickness"]),
   (("stroke", "color"), [.whole "stroke"]), (("stroke", "length"), [.whole "stroke-width"]),
   (("stroke", "number"), [.whole "stroke-width"]), (("fill", "color"), [.whole "fill"]),
   (("ring", "color"), [.whole "--tw-ring-color"]), (("ring", "length"), ringTemplate),
   (("font", "family-name"), [.whole "font-family"]), (("font", "weight"), [.whole "font-weight"]),
   (("font", "number"), [.whole "font-weight"]),
   (("grid-cols", "template"), [.whole "grid-template-columns"]),
   (("grid-rows", "template"), [.whole "grid-template-rows"]), (("w", "length"), [.whole "width"]),
   (("h", "length"), [.whole "height"])]

/-- Families of `templates` that accept a minus sign in front. -/
def negatable : List String :=
  ["rotate", "translate-x", "translate-y"]

/-- Whether some family knows a type hint. -/
def isHint (hint : String) : Bool :=
  typedTemplates.any fun entry => entry.1.2 == hint

/-- Every family that accepts a minus sign has a template. -/
theorem isSome_lookup_of_mem_negatable :
    ∀ family ∈ negatable, (templates.lookup family).isSome := by
  decide

end AtomicCss.Dynamic
