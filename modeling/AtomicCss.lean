import AtomicCss.BaseLayer
import AtomicCss.Catalog
import AtomicCss.Catalog.Color
import AtomicCss.Catalog.Effects
import AtomicCss.Catalog.Entry
import AtomicCss.Catalog.Flexbox
import AtomicCss.Catalog.Interactivity
import AtomicCss.Catalog.Layout
import AtomicCss.Catalog.Motion
import AtomicCss.Catalog.Sizing
import AtomicCss.Catalog.Spacing
import AtomicCss.Catalog.Typography
import AtomicCss.Color.Family
import AtomicCss.Color.Palette
import AtomicCss.CommandLine
import AtomicCss.Compiler
import AtomicCss.Component.Builtin
import AtomicCss.Component.Library
import AtomicCss.Css.Declaration
import AtomicCss.Css.Rule
import AtomicCss.Dynamic
import AtomicCss.Dynamic.Assignment
import AtomicCss.Dynamic.Family
import AtomicCss.Dynamic.Opacity
import AtomicCss.Dynamic.Step
import AtomicCss.Dynamic.Template
import AtomicCss.Dynamic.Value
import AtomicCss.Error
import AtomicCss.Files
import AtomicCss.Markup
import AtomicCss.Numeric.Binary64
import AtomicCss.Numeric.Decimal
import AtomicCss.Numeric.Power
import AtomicCss.Numeric.Shortest
import AtomicCss.Ordered.Map
import AtomicCss.Ordered.Set
import AtomicCss.Proofs.Catalog.Containment
import AtomicCss.Proofs.Compiler.Containment
import AtomicCss.Proofs.Css.Containment
import AtomicCss.Proofs.Dynamic.Containment
import AtomicCss.Proofs.Selector.Containment
import AtomicCss.Proofs.Sheet.Braces
import AtomicCss.Proofs.Sheet.Placement
import AtomicCss.Proofs.Text.Delimiter
import AtomicCss.Proofs.Text.Exposed
import AtomicCss.Proofs.Theme.Containment
import AtomicCss.Proofs.Trie.Invariant
import AtomicCss.Proofs.Trie.Refinement
import AtomicCss.Proofs.Variant.Containment
import AtomicCss.Proofs.Variant.Inversion
import AtomicCss.Selector
import AtomicCss.Sheet
import AtomicCss.Stylesheet
import AtomicCss.Text.Authored
import AtomicCss.Text.Blank
import AtomicCss.Text.Case
import AtomicCss.Text.Cut
import AtomicCss.Text.Identifier
import AtomicCss.Text.Nesting
import AtomicCss.Theme.Basic
import AtomicCss.Theme.Layer
import AtomicCss.Theme.Reading
import AtomicCss.Theme.Scale
import AtomicCss.Theme.Validation
import AtomicCss.Trie
import AtomicCss.Variant.Basic
import AtomicCss.Variant.Condition
import AtomicCss.Variant.Escape
import AtomicCss.Variant.Token
import AtomicCss.Yaml.Glyph
import AtomicCss.Yaml.Node
import AtomicCss.Yaml.Scalar
import AtomicCss.Yaml.Scanner
import AtomicCss.Yaml.Token
import AtomicCss.Yaml.Value
import AtomicCss.Main
import AtomicCss.Proofs.Selector.Slots
import AtomicCss.Proofs.Variant.Segments
import AtomicCss.Proofs.Sheet.MediaOrder
import AtomicCss.Proofs.Compiler.MediaOrder
import AtomicCss.Proofs.Compiler.ThemeUse
import AtomicCss.Proofs.Dynamic.Names
import AtomicCss.Proofs.Variant.Escape
import AtomicCss.Proofs.Dynamic.Forms
import AtomicCss.Proofs.Catalog.Names
import AtomicCss.Proofs.Compiler.ClassName
import AtomicCss.Proofs.Selector.Outline
import AtomicCss.Proofs.Sheet.Growth
import AtomicCss.Proofs.Compiler.Redundancy
import AtomicCss.Proofs.Markup.Tokens
import AtomicCss.Proofs.CommandLine.Output
import AtomicCss.Proofs.Compiler.Components
import AtomicCss.Proofs.Text.Words
import AtomicCss.Proofs.Markup.Scan
import AtomicCss.Proofs.Markup.Roundtrip
import AtomicCss.Proofs.Theme.PropertyNames
import AtomicCss.Proofs.Theme.Layer
import AtomicCss.Proofs.Compiler.Important
import AtomicCss.Proofs.Dynamic.Inversion
import AtomicCss.Proofs.Dynamic.Filling
import AtomicCss.Proofs.Text.Authored
import AtomicCss.Proofs.Dynamic.Encoding
import AtomicCss.Proofs.Dynamic.Nesting
import AtomicCss.Proofs.Dynamic.References
import AtomicCss.Proofs.Dynamic.Hints
import AtomicCss.Proofs.Dynamic.Negation
import AtomicCss.Proofs.Dynamic.Percentages
import AtomicCss.Proofs.Variant.Attributes
import AtomicCss.Proofs.Variant.Widths
import AtomicCss.Proofs.Catalog.Steps
import AtomicCss.Proofs.Compiler.ThemeColors
import AtomicCss.Proofs.Color.Palette
import AtomicCss.Proofs.Css.Variables
import AtomicCss.Proofs.Dynamic.SpacingSteps
import AtomicCss.Proofs.Dynamic.Variables
import AtomicCss.Proofs.Numeric.Quarters
import AtomicCss.Proofs.Catalog.Variables
import AtomicCss.Proofs.Ordered.Extension
import AtomicCss.Proofs.Theme.Overlay
import AtomicCss.Proofs.Theme.Entries
import AtomicCss.Proofs.Text.ByteOrder
import AtomicCss.Proofs.Component.Directory
import AtomicCss.Proofs.CommandLine.Arguments
import AtomicCss.Proofs.Trie.Beginnings
