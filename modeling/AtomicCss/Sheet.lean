import AtomicCss.Catalog.Motion
import AtomicCss.Css.Rule
import AtomicCss.Ordered.Map
import AtomicCss.Ordered.Set
import AtomicCss.Text.Blank
import AtomicCss.Text.Cut

/-!
# Stylesheets

The rules of a page are sorted into buckets by the queries around them, and rules with the same body
share one line. Buckets, bodies and selectors keep the order in which they first came, with one exception:
media blocks are written in ascending order of their priority, since a later block overrides an earlier
one.

* `Bucket` — bodies with the selectors that share them;
* `Sheet.add` — sorts one rule in;
* `Sheet.renderBody` — the text of a sheet.
-/

namespace AtomicCss

/-! ## Buckets -/

/-- Rule bodies, each with the selectors that share it. -/
abbrev Bucket := OrderedMap String (OrderedSet String)

namespace Bucket

/-- The bucket with one more rule. -/
def add (bucket : Bucket) (rule : Rule) : Bucket :=
  bucket.alter rule.body fun selectors => (selectors.getD ∅).insert rule.selector

/-- The text of a bucket: a line for every body, with all its selectors. -/
def render (indent : String) (bucket : Bucket) : String :=
  String.join (bucket.entries.map fun (body, selectors) =>
    indent ++ ruleText (", ".intercalate selectors.toList) body ++ "\n")

end Bucket

/-! ## Sheets -/

/-- The rules of one media query. -/
structure MediaBlock where
  /-- The least priority of the rules in the block. -/
  priority : Nat
  rules : Bucket
  deriving DecidableEq

/-- The rules of one container query. -/
structure ContainerBlock where
  /-- The rules without a media query. -/
  rules : Bucket
  /-- The rules of the media queries inside. -/
  media : OrderedMap String Bucket
  deriving DecidableEq

/-- The utilities and components of a page. -/
structure Sheet where
  utilities : Bucket
  keyframes : OrderedSet String
  /-- The rules of every media query. -/
  media : OrderedMap String MediaBlock
  /-- The rules of every container query. -/
  containers : OrderedMap String ContainerBlock
  /-- The CSS of the components in use. -/
  components : List String
  deriving DecidableEq

namespace MediaBlock

/-- The block with one more rule; a new block has the priority of its rule, and the least one counts. -/
def add (priority : Nat) (rule : Rule) : Option MediaBlock → MediaBlock
  | none => ⟨priority, Bucket.add ∅ rule⟩
  | some block => ⟨min block.priority priority, block.rules.add rule⟩

end MediaBlock

namespace ContainerBlock

/-- The block with one more rule, which goes into the media query inside if it has one. -/
def add (block : ContainerBlock) (rule : Rule) : ContainerBlock :=
  match rule.media with
  | some media =>
    { block with
      media := block.media.alter media.query fun bucket => Bucket.add (bucket.getD ∅) rule }
  | none => { block with rules := block.rules.add rule }

end ContainerBlock

namespace Sheet

def empty : Sheet :=
  { utilities := ∅, keyframes := ∅, media := ∅, containers := ∅, components := [] }

instance : EmptyCollection Sheet := ⟨empty⟩

/-- The sheet with the animation of a rule. -/
def addKeyframes (sheet : Sheet) (name : Option String) : Sheet :=
  match name with
  | some name => { sheet with keyframes := sheet.keyframes.insert name }
  | none => sheet

/-- The sheet with one more rule in the bucket of its queries; a container query is the outer one. -/
def addRule (sheet : Sheet) (rule : Rule) : Sheet :=
  match rule.container, rule.media with
  | some container, _ =>
    { sheet with
      containers := sheet.containers.alter container fun block =>
        (block.getD ⟨∅, ∅⟩).add rule }
  | none, some media =>
    { sheet with media := sheet.media.alter media.query (MediaBlock.add media.priority rule) }
  | none, none => { sheet with utilities := sheet.utilities.add rule }

/-- The sheet with one more rule and its animation. -/
def add (sheet : Sheet) (rule : Rule) : Sheet :=
  (sheet.addKeyframes rule.keyframes).addRule rule

/-- The sheet of a list of rules. -/
def ofRules (rules : List Rule) : Sheet :=
  rules.foldl add ∅

/-- Whether a sheet has neither rules nor animations nor components. -/
def isEmpty (sheet : Sheet) : Bool :=
  sheet.utilities.isEmpty && sheet.keyframes.isEmpty && sheet.media.isEmpty &&
    sheet.containers.isEmpty && sheet.components.isEmpty

/-! ## Text -/

/-- A block of lines: a heading, lines that are indented already, and a closing brace. -/
def block (indent heading content : String) : String :=
  indent ++ heading ++ " \x7b\n" ++ content ++ indent ++ "\x7d\n"

/-- A block of the utilities layer. -/
def utilitiesLayer (content : String) : String :=
  block "" "@layer utilities" content

/-- The rules without queries, and the animations. A name that is no built-in animation has no text. -/
def renderPlain (sheet : Sheet) : String :=
  if sheet.utilities.isEmpty && sheet.keyframes.isEmpty then ""
  else
    utilitiesLayer
      (sheet.utilities.render "  " ++
        String.join (sheet.keyframes.toList.filterMap fun name =>
          (Keyframes.text? name).map fun text => "  " ++ text ++ "\n"))

/-- The media queries with their blocks in ascending order of priority; blocks of the same priority keep
their order. -/
def sortedMedia (sheet : Sheet) : List (String × MediaBlock) :=
  sheet.media.entries.mergeSort fun a b => decide (a.2.priority ≤ b.2.priority)

/-- The block of a media query. -/
def renderMedia (entry : String × MediaBlock) : String :=
  utilitiesLayer (block "  " entry.1 (entry.2.rules.render "    "))

/-- The block of a container query, with the media queries inside behind its rules. -/
def renderContainer (entry : String × ContainerBlock) : String :=
  utilitiesLayer <| block "  " entry.1 <|
    entry.2.rules.render "    " ++
      String.join (entry.2.media.entries.map fun (query, bucket) =>
        block "    " query (bucket.render "      "))

/-- The lines of a text; its blank end is left out, and so is a carriage return at the end of a line. -/
def linesOf (text : String) : List String :=
  if Text.isAllBlank text then []
  else
    (Text.pieces '\n' (Text.trimEnd text)).map fun line => (Text.before? "\r" line).getD line

/-- The components layer, without components nothing. -/
def renderComponents (components : List String) : String :=
  if components.isEmpty then ""
  else
    block "" "@layer components"
      (String.join ((components.flatMap linesOf).map fun line => "  " ++ line ++ "\n"))

def renderBody (sheet : Sheet) : String :=
  sheet.renderPlain ++ String.join (sheet.sortedMedia.map renderMedia) ++
    String.join (sheet.containers.entries.map renderContainer) ++
    renderComponents sheet.components

/-! ## Small facts -/

/-- A sheet is built rule after rule. -/
theorem ofRules_append (rules more : List Rule) :
    ofRules (rules ++ more) = more.foldl add (ofRules rules) :=
  List.foldl_append

end Sheet

end AtomicCss
