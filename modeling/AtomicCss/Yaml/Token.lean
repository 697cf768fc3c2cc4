/-!
# The tokens of a YAML document

A document is a sequence of tokens. Block structure is made explicit: where indentation opens or closes
a collection there is a token for it, and a key is announced by a token in front of it even when only
the colon behind it shows that it is one.

Anchors carry the number of the slot that they fill, and aliases the number of the slot that they refer
to.
-/

namespace AtomicCss.Yaml

inductive Token where
  /-- A `%YAML` directive with its version. -/
  | version (major minor : Nat)
  /-- A `%TAG` directive: a handle and what it stands for. -/
  | tagHandle (handle lead : String)
  /-- `---` -/
  | documentStart
  /-- `...` -/
  | documentEnd
  | blockSequenceStart
  | blockMappingStart
  | blockEnd
  /-- `[` -/
  | flowSequenceStart
  /-- `]` -/
  | flowSequenceEnd
  | flowMappingStart
  | flowMappingEnd
  | blockEntry
  | flowEntry
  | key
  | value
  /-- `*name`, as the slot that the name refers to. -/
  | reference (slot : Nat)
  /-- `&name`, as the slot that the name fills. -/
  | anchor (slot : Nat)
  /-- A tag: its handle, empty for a verbatim tag, and the rest. -/
  | tag (handle suffix : String)
  /-- A scalar, and whether it is written plainly, without quotes or a block header. -/
  | scalar (isPlain : Bool) (text : String)
  deriving DecidableEq, Repr, Inhabited

end AtomicCss.Yaml
