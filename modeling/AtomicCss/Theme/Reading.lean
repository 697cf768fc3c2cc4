import AtomicCss.Text.Blank
import AtomicCss.Theme.Validation
import AtomicCss.Yaml.Value

/-!
# Theme files

A theme file is a YAML mapping from category names to entries. Scalars are typed first and then written
back, so `60` and `'60'` are one value, and `1.50` is `1.5`.

The entries of a category are collected twice: under their typed keys, where a repeated key keeps its
place and takes the last value, and then in the same way under the keys as they are written back.

* `entriesOf?` — the entries of a category from its typed pairs;
* `Theme.overlay?` — the overrides in a document;
* `Theme.parse` — the default theme with the overrides of a file, checked.
-/

namespace AtomicCss

open Yaml

namespace Theme

/-! ## Entries of a category -/

/-- Pairs under typed keys, with one more: a known key keeps its place and takes the new value. -/
def putTyped (pairs : List (Value × Value)) (key value : Value) : List (Value × Value) :=
  match pairs with
  | [] => [(key, value)]
  | (k, v) :: rest => if k.same key then (k, value) :: rest else (k, v) :: putTyped rest key value

/-- The pairs of a list, no two of them under the same typed key. -/
def collectTyped (pairs : List (Value × Value)) : List (Value × Value) :=
  pairs.foldl (fun acc p => putTyped acc p.1 p.2) []

/-- A pair as it is written back; both sides must be scalars. -/
def pairText? (pair : Value × Value) : Option (String × String) := do
  return (← pair.1.text?, ← pair.2.text?)

/-- The entries of a category from its typed pairs, in document order. -/
def entriesOf? (pairs : List (Value × Value)) : Option (OrderedMap String String) :=
  ((collectTyped pairs).mapM pairText?).map OrderedMap.ofList

/-! ## Nodes -/

/-- Whether a node stands for something that is not given: an empty or null plain scalar. -/
def isMissing (tag : Option String) (isPlain : Bool) (text : String) : Bool :=
  isPlain && (match tag with
    | none => text.isEmpty || spellsNull text
    | some tag => tag == coreTag "null" && spellsNull text)

/-- The pairs of nodes of a mapping that need not be given. An empty plain scalar with a tag counts as an empty
mapping, unless the tag asks for null. -/
def optionalMapping (doc : Document) (node : Node) : Bounded (Option (List (Node × Node))) := do
  match ← doc.follow node with
  | .mapping _ _ entries => return some entries
  | .scalar _ tag isPlain text =>
    if isMissing tag isPlain text then return none
    else if isPlain && text.isEmpty && tag != some (coreTag "null") then return some []
    else failure
  | _ => failure

/-- How deep collections may be nested inside an entry of a category. -/
def entryDepth : Nat := 126

/-- The entries of a category of plain values, if it is given. -/
def readCategory (doc : Document) (node : Node) : Bounded (Option (OrderedMap String String)) := do
  match ← optionalMapping doc node with
  | none => return none
  | some entries =>
    let pairs ← entries.mapM fun (k, v) => do
      let k ← doc.value? entryDepth k
      let v ← doc.value? entryDepth v
      return (k, v)
    return some (← entriesOf? pairs)

/-- The text of a node that must be a scalar, written back. -/
def readText (doc : Document) (node : Node) : Bounded String := do
  match ← doc.follow node with
  | .scalar _ tag isPlain text => (Value.ofScalar? tag isPlain text).bind Value.text?
  | _ => failure

/-- The text of a key as it stands in the document. -/
def readKey (doc : Document) (node : Node) : Bounded String := do
  match ← doc.follow node with
  | .scalar _ _ _ text => return text
  | _ => failure

def readOptional (doc : Document) (node : Node) : Bounded (Option String) := do
  match ← doc.follow node with
  | .scalar _ tag isPlain text =>
    if isMissing tag isPlain text then return none
    else if isPlain && tag == some (coreTag "null") then failure
    else
      match ← Value.ofScalar? tag isPlain text with
      | .null => return none
      | value => return some (← value.text?)
  | _ => failure

/-- The two fields of an entry of the type scale from the entries of its mapping. Each has to be given
exactly once; other keys are ignored. -/
def readTextFields (doc : Document) (size lineHeight : Option String) :
    List (Node × Node) → Bounded TextSize
  | [] =>
    match size, lineHeight with
    | some size, some lineHeight => return ⟨size, lineHeight⟩
    | _, _ => failure
  | (k, v) :: rest => do
    let key ← readKey doc k
    if key = "size" then
      if size.isSome then failure else readTextFields doc (← readText doc v) lineHeight rest
    else if key = "lineHeight" then
      if lineHeight.isSome then failure else readTextFields doc size (← readText doc v) rest
    else readTextFields doc size lineHeight rest

/-- An entry of the type scale. -/
def readTextSize (doc : Document) (node : Node) : Bounded TextSize := do
  match ← doc.follow node with
  | .mapping _ _ entries => readTextFields doc none none entries
  | _ => failure

/-- The entries of the type scale, if it is given. Its keys are taken as they stand. -/
def readTextScale (doc : Document) (node : Node) : Bounded (Option (OrderedMap String TextSize)) := do
  match ← optionalMapping doc node with
  | none => return none
  | some entries =>
    let pairs ← entries.mapM fun (k, v) => do
      let k ← readKey doc k
      let v ← readTextSize doc v
      return (k, v)
    return some (OrderedMap.ofList pairs)

/-- The overrides with the values of one more name, which must be that of a category, the type scale or
the spacing unit. -/
def readField (doc : Document) (overlay : Overlay) (name : String) (node : Node) : Bounded Overlay :=
  if name = "spacing" then return { overlay with spacing := ← readOptional doc node }
  else if name = "text" then return { overlay with text := ← readTextScale doc node }
  else
    match Category.ofName? name with
    | some category => return overlay.withScale category (← readCategory doc node)
    | none => failure

/-- The overrides from the entries of the root mapping; no name may be repeated. -/
def readFields (doc : Document) (seen : List String) (overlay : Overlay) :
    List (Node × Node) → Bounded Overlay
  | [] => return overlay
  | (k, v) :: rest => do
    let name ← readKey doc k
    if seen.contains name then failure
    else readFields doc (name :: seen) (← readField doc overlay name v) rest

/-- The overrides in a document. An empty document has none. -/
def readOverlay (doc : Document) : Bounded Overlay :=
  match doc.root with
  | none => return {}
  | some (.mapping _ _ entries) => readFields doc [] {} entries
  | some (.scalar _ _ true "") => return {}
  | some _ => failure

/-- The overrides in a text, unless it is no YAML document or has not the shape of a theme. -/
def overlay? (text : String) : Option Overlay := do
  let doc ← Document.parse? text
  (readOverlay doc).run' doc.bound

/-- The default theme with the overrides of a text, checked. A blank text overrides nothing. -/
def parse (text : String) : Except Error Theme :=
  match if Text.isAllBlank text then some {} else overlay? text with
  | none => .error .malformedTheme
  | some overlay =>
    let theme := standard.extend overlay
    theme.validate.map fun _ => theme

end Theme

end AtomicCss
