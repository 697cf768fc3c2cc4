import AtomicCss.Text.Authored
import AtomicCss.Text.Cut
import AtomicCss.Text.Identifier

/-!
# Conditions on an element

Most variants are conditions on one element: a pseudo-class, an attribute, or selector text in brackets.
The same conditions apply to the element itself, to a marked ancestor or sibling, and inside `:has()` and
`:not()`.

* `bracketed?` — the non-empty inside of square brackets;
* `condition?` — the selector text of a condition.
-/

namespace AtomicCss

/-! ## Tables -/

def pseudoClasses : List (String × String) :=
  [("hover", ":hover"), ("focus", ":focus"), ("focus-within", ":focus-within"),
   ("focus-visible", ":focus-visible"), ("active", ":active"), ("visited", ":visited"),
   ("target", ":target"), ("disabled", ":disabled"), ("enabled", ":enabled"), ("checked", ":checked"),
   ("indeterminate", ":indeterminate"), ("default", ":default"), ("required", ":required"),
   ("optional", ":optional"), ("valid", ":valid"), ("invalid", ":invalid"),
   ("user-valid", ":user-valid"), ("user-invalid", ":user-invalid"), ("in-range", ":in-range"),
   ("out-of-range", ":out-of-range"), ("placeholder-shown", ":placeholder-shown"),
   ("autofill", ":autofill"), ("read-only", ":read-only"), ("open", ":is([open], :popover-open)"),
   ("first", ":first-child"), ("last", ":last-child"), ("only", ":only-child"),
   ("odd", ":nth-child(odd)"), ("even", ":nth-child(even)"), ("first-of-type", ":first-of-type"),
   ("last-of-type", ":last-of-type"), ("only-of-type", ":only-of-type"), ("empty", ":empty"),
   ("inert", ":is([inert], [inert] *)")]

/-! ## Text in brackets -/

/-- The inside of square brackets around a text, which may not be empty. -/
def bracketed? (s : String) : Option String :=
  (Text.enclosed? "[" "]" s).filter (!·.isEmpty)

/-! ## Attributes -/

/-- Whether a text begins with a quote. -/
def startsQuoted (s : String) : Bool :=
  match s.toList with
  | c :: _ => c == '"' || c == '\''
  | [] => false

/-- An attribute selector from authored text: `key=value`, or a key alone. A value in quotes is taken as
it stands, any other is put in quotes. The key must be an identifier; `family` is `aria` or `data`. -/
def attribute? (family raw : String) : Option String :=
  let raw := Text.decodeSpaces raw
  match Text.cut? "=" raw with
  | some (key, value) =>
    if !Text.isIdentifier key then none
    else if startsQuoted value then some ("[" ++ family ++ "-" ++ key ++ "=" ++ value ++ "]")
    else some ("[" ++ family ++ "-" ++ key ++ "=\"" ++ value ++ "\"]")
  | none => if Text.isIdentifier raw then some ("[" ++ family ++ "-" ++ raw ++ "]") else none

/-- The attribute selector of what follows `aria-` or `data-`: authored text in brackets, or a name that
is to be `"true"`. -/
def attributeVariant? (family name : String) : Option String :=
  match bracketed? name with
  | some raw => attribute? family raw
  | none =>
    if Text.isIdentifier name then some ("[" ++ family ++ "-" ++ name ++ "=\"true\"]") else none

/-- The selector text of a condition on an element: a pseudo-class, an `aria` or `data` attribute, or
authored text in brackets. -/
def condition? (variant : String) : Option String :=
  match pseudoClasses.lookup variant with
  | some pseudo => some pseudo
  | none =>
    match Text.after? "aria-" variant with
    | some name => attributeVariant? "aria" name
    | none =>
      match Text.after? "data-" variant with
      | some name => attributeVariant? "data" name
      | none => (bracketed? variant).map Text.decodeSpaces

end AtomicCss
