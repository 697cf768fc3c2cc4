import AtomicCss.Css.Declaration

/-!
# Templates

What a dynamic utility sets depends on a value that comes with the class name. A template lists the
properties and, for each, the pieces of text between which the value is put.

* `Slot.whole`, `Slot.around`, `Slot.fixed` — the value itself, the value inside other text, a constant;
* `Template.fill` — the declarations of a template for a value.
-/

namespace AtomicCss.Dynamic

/-- A property with the pieces of its value: the given value stands between every two of them. -/
structure Slot where
  property : String
  /-- The text around the given value. -/
  pieces : List String
  deriving DecidableEq, Repr, Inhabited

namespace Slot

/-- The given value is the whole value of the property. -/
def whole (property : String) : Slot :=
  ⟨property, ["", ""]⟩

/-- The given value stands once, between two pieces. -/
def around (property before after : String) : Slot :=
  ⟨property, [before, after]⟩

/-- The property has a constant value. -/
def fixed (property value : String) : Slot :=
  ⟨property, [value]⟩

/-- The declaration for a given value. -/
def fill (slot : Slot) (value : String) : Declaration :=
  .property slot.property (value.intercalate slot.pieces)

end Slot

/-- The properties that a dynamic utility sets. -/
abbrev Template := List Slot

/-- The declarations of a template for a given value. -/
def Template.fill (template : Template) (value : String) : List Declaration :=
  template.map (Slot.fill · value)

/-- Several properties that are all set to the given value. -/
def Template.each (properties : List String) : Template :=
  properties.map Slot.whole

/-! ## What filling shows -/

/-- A whole slot sets its property to the given value. -/
theorem Slot.fill_whole (property value : String) :
    (Slot.whole property).fill value = .property property value := by
  simp [Slot.fill, Slot.whole]

/-- A constant slot does not depend on the given value. -/
theorem Slot.fill_fixed (property text value : String) :
    (Slot.fixed property text).fill value = .property property text := by
  simp [Slot.fill, Slot.fixed]

end AtomicCss.Dynamic
