import AtomicCss.Yaml.Scanner

/-!
# From tokens to nodes

A YAML document is a tree of nodes: scalars, sequences, mappings, and aliases for nodes that stand
elsewhere in the document. `Document.parse?` reads the one document of a text.

Anchors are kept at their nodes as slot numbers. `Document.target?` finds the node that a slot refers to:
the last one in document order that fills it.
-/

namespace AtomicCss.Yaml

/-- A node of a document. A tag is a sequence of octets, each kept as the character of its number. -/
inductive Node where
  /-- A scalar: its slot, its tag, whether it is written plainly, and its text. -/
  | scalar (slot : Option Nat) (tag : Option String) (isPlain : Bool) (text : String)
  | sequence (slot : Option Nat) (tag : Option String) (items : List Node)
  | mapping (slot : Option Nat) (tag : Option String) (entries : List (Node × Node))
  /-- The node that a slot refers to. -/
  | reference (slot : Nat)
  deriving Repr, Inhabited

/-- A parser of tokens: what it reads, with the tokens behind it, or nothing for a malformed document. -/
abbrev Reader (α : Type) := List Token → Option (α × List Token)

/-- What the tag handles of a document stand for. -/
abbrev Handles := List (String × String)

/-- The handles that every document knows. -/
def defaultHandles : Handles :=
  [("!", "!"), ("!!", "tag:yaml.org,2002:")]

/-- The anchor and the tag in front of a node, each at most once and in either order. -/
def readProperties : List Token → Option Nat × Option (String × String) × List Token
  | .anchor slot :: .tag handle suffix :: rest => (some slot, some (handle, suffix), rest)
  | .anchor slot :: rest => (some slot, none, rest)
  | .tag handle suffix :: .anchor slot :: rest => (some slot, some (handle, suffix), rest)
  | .tag handle suffix :: rest => (none, some (handle, suffix), rest)
  | rest => (none, none, rest)

/-- The tag that a handle and a suffix come to: a verbatim tag is its suffix, and a handle has to be
known. -/
def resolveTag (handles : Handles) : Option (String × String) → Option (Option String)
  | none => some none
  | some (handle, suffix) =>
    if handle.isEmpty then some (some suffix)
    else (handles.lookup handle).map fun lead => some (lead ++ suffix)

/-- A scalar that is not there. -/
def emptyScalar : Node :=
  .scalar none none true ""

/-- Whether the next token is one of those given. -/
def nextIs (tokens : List Token) : List Token → Bool
  | [] => tokens.isEmpty
  | token :: _ => tokens.contains token

/-- A node that is not there: an anchor or a tag stands for an empty scalar, and without either something
is missing. -/
def absent (slot : Option Nat) (tag : Option String) : Reader Node :=
  fun rest => if slot.isSome || tag.isSome then some (.scalar slot tag true "", rest) else none

mutual

/-- A node. An indented collection may stand here only if `inBlock`, and a sequence at the column of its
parent mapping only if `bare`. -/
def readNode (handles : Handles) (inBlock bare : Bool) : Nat → Reader Node
  | 0, _ => none
  | _ + 1, .reference slot :: rest => some (.reference slot, rest)
  | fuel + 1, tokens => do
    let (slot, written, rest) := readProperties tokens
    let tag ← resolveTag handles written
    match rest with
    | .blockEntry :: _ =>
      if bare then
        let (items, rest) ← readBareItems handles fuel rest
        return (.sequence slot tag items, rest)
      else absent slot tag rest
    | .scalar isPlain text :: rest =>
      return (.scalar slot tag isPlain text, rest)
    | .flowSequenceStart :: rest =>
      let (items, rest) ← readFlowItems handles true fuel rest
      return (.sequence slot tag items, rest)
    | .flowMappingStart :: rest =>
      let (entries, rest) ← readFlowEntries handles true fuel rest
      return (.mapping slot tag entries, rest)
    | .blockSequenceStart :: more =>
      if inBlock then
        let (items, rest) ← readBlockItems handles fuel more
        return (.sequence slot tag items, rest)
      else absent slot tag rest
    | .blockMappingStart :: more =>
      if inBlock then
        let (entries, rest) ← readBlockEntries handles fuel more
        return (.mapping slot tag entries, rest)
      else absent slot tag rest
    | rest => absent slot tag rest

/-- The items of an indented sequence, behind its start. -/
def readBlockItems (handles : Handles) : Nat → Reader (List Node)
  | fuel + 1, .blockEntry :: rest => do
    let (item, rest) ←
      if nextIs [.blockEntry, .blockEnd] rest then some (emptyScalar, rest)
      else readNode handles true false fuel rest
    let (items, rest) ← readBlockItems handles fuel rest
    return (item :: items, rest)
  | _ + 1, .blockEnd :: rest => some ([], rest)
  | _, _ => none

/-- The items of a sequence at the column of its parent mapping. -/
def readBareItems (handles : Handles) : Nat → Reader (List Node)
  | fuel + 1, .blockEntry :: rest => do
    let (item, rest) ←
      if nextIs [.blockEntry, .key, .value, .blockEnd] rest then some (emptyScalar, rest)
      else readNode handles true false fuel rest
    let (items, rest) ← readBareItems handles fuel rest
    return (item :: items, rest)
  | _ + 1, rest => some ([], rest)
  | 0, _ => none

/-- The entries of an indented mapping, behind its start. -/
def readBlockEntries (handles : Handles) : Nat → Reader (List (Node × Node))
  | fuel + 1, .key :: rest => do
    let (key, rest) ←
      if nextIs [.key, .value, .blockEnd] rest then some (emptyScalar, rest)
      else readNode handles true true fuel rest
    let (value, rest) ←
      match rest with
      | .value :: rest =>
        if nextIs [.key, .value, .blockEnd] rest then some (emptyScalar, rest)
        else readNode handles true true fuel rest
      | rest => some (emptyScalar, rest)
    let (entries, rest) ← readBlockEntries handles fuel rest
    return ((key, value) :: entries, rest)
  | _ + 1, .blockEnd :: rest => some ([], rest)
  | _, _ => none

/-- The items of a sequence between brackets, behind the bracket or behind an item. A key among them makes
a mapping of one entry. -/
def readFlowItems (handles : Handles) (first : Bool) : Nat → Reader (List Node)
  | _ + 1, .flowSequenceEnd :: rest => some ([], rest)
  | fuel + 1, tokens => do
    let rest ←
      match first, tokens with
      | true, tokens => some tokens
      | false, .flowEntry :: rest => some rest
      | false, _ => none
    match rest with
    | .flowSequenceEnd :: rest => return ([], rest)
    | .key :: rest =>
      let (key, rest) ←
        if nextIs [.value, .flowEntry, .flowSequenceEnd] rest then some (emptyScalar, rest.drop 1)
        else readNode handles false false fuel rest
      let (value, rest) ← readFlowValue handles .flowSequenceEnd fuel rest
      let (items, rest) ← readFlowItems handles false fuel rest
      return (.mapping none none [(key, value)] :: items, rest)
    | rest =>
      let (item, rest) ← readNode handles false false fuel rest
      let (items, rest) ← readFlowItems handles false fuel rest
      return (item :: items, rest)
  | 0, _ => none

/-- The entries of a mapping between braces, behind the brace or behind an entry. -/
def readFlowEntries (handles : Handles) (first : Bool) : Nat → Reader (List (Node × Node))
  | _ + 1, .flowMappingEnd :: rest => some ([], rest)
  | fuel + 1, tokens => do
    let rest ←
      match first, tokens with
      | true, tokens => some tokens
      | false, .flowEntry :: rest => some rest
      | false, _ => none
    match rest with
    | .flowMappingEnd :: rest => return ([], rest)
    | .key :: rest =>
      let (key, rest) ←
        if nextIs [.value, .flowEntry, .flowMappingEnd] rest then some (emptyScalar, rest)
        else readNode handles false false fuel rest
      let (value, rest) ← readFlowValue handles .flowMappingEnd fuel rest
      let (entries, rest) ← readFlowEntries handles false fuel rest
      return ((key, value) :: entries, rest)
    | rest =>
      let (key, rest) ← readNode handles false false fuel rest
      let (entries, rest) ← readFlowEntries handles false fuel rest
      return ((key, emptyScalar) :: entries, rest)
  | 0, _ => none

/-- The value behind a key between brackets or braces, if there is one; `close` ends the collection. -/
def readFlowValue (handles : Handles) (close : Token) : Nat → Reader Node
  | fuel + 1, .value :: rest =>
    if nextIs [.flowEntry, close] rest then some (emptyScalar, rest)
    else readNode handles false false fuel rest
  | _ + 1, rest => some (emptyScalar, rest)
  | 0, _ => none

end

/-! ## Anchors -/

mutual

/-- The slots that are filled by a node and the nodes inside it, in document order. -/
def Node.filled : Node → List (Nat × Node)
  | .scalar slot tag isPlain text => slot.toList.map fun n => (n, .scalar slot tag isPlain text)
  | .sequence slot tag items =>
    slot.toList.map (fun n => (n, .sequence slot tag items)) ++ filledByItems items
  | .mapping slot tag entries =>
    slot.toList.map (fun n => (n, .mapping slot tag entries)) ++ filledByEntries entries
  | .reference _ => []

/-- The slots that are filled by the items of a sequence. -/
def filledByItems : List Node → List (Nat × Node)
  | [] => []
  | item :: items => item.filled ++ filledByItems items

/-- The slots that are filled by the entries of a mapping. -/
def filledByEntries : List (Node × Node) → List (Nat × Node)
  | [] => []
  | (key, value) :: entries => key.filled ++ value.filled ++ filledByEntries entries

end

mutual

/-- The size of a node: one for a scalar or an alias, two more than its parts for a collection. -/
def Node.size : Node → Nat
  | .scalar .. => 1
  | .sequence _ _ items => 2 + sizeOfItems items
  | .mapping _ _ entries => 2 + sizeOfEntries entries
  | .reference _ => 1

/-- The size of the items of a sequence. -/
def sizeOfItems : List Node → Nat
  | [] => 0
  | item :: items => item.size + sizeOfItems items

/-- The size of the entries of a mapping. -/
def sizeOfEntries : List (Node × Node) → Nat
  | [] => 0
  | (key, value) :: entries => key.size + value.size + sizeOfEntries entries

end

/-! ## Documents -/

/-- A document: its root, unless there is nothing at all, and the nodes that its slots refer to. -/
structure Document where
  root : Option Node
  /-- The slots with the nodes that fill them, in document order. -/
  filled : List (Nat × Node)
  deriving Repr, Inhabited

def Document.ofRoot (root : Node) : Document :=
  ⟨some root, root.filled⟩

/-- The node that a slot refers to: the last one that fills it. -/
def Document.target? (doc : Document) (slot : Nat) : Option Node :=
  doc.filled.reverse.lookup slot

/-- The directives in front of a document. A version may be given once and must be 1.1 or 1.2, and no
handle may be given twice. -/
def readDirectives (hasVersion : Bool) (handles : Handles) : Reader Handles
  | .version major minor :: rest =>
    if hasVersion || major ≠ 1 || (minor ≠ 1 && minor ≠ 2) then none
    else readDirectives true handles rest
  | .tagHandle handle lead :: rest =>
    if (handles.lookup handle).isSome then none
    else readDirectives hasVersion (handles ++ [(handle, lead)]) rest
  | rest => some (handles, rest)

/-- Whether the next token begins or ends a document, or there is none. -/
def atDocumentEdge : List Token → Bool
  | [] | .version .. :: _ | .tagHandle .. :: _ | .documentStart :: _ | .documentEnd :: _ => true
  | _ => false

/-- The root node of the first document. Directives need a `---` behind them, and behind a `---` the
document may be empty. -/
def readRoot (tokens : List Token) : Option (Node × List Token) :=
  let fuel := 4 * tokens.length + 4
  match tokens with
  | .version .. :: _ | .tagHandle .. :: _ | .documentStart :: _ => do
    let (handles, rest) ← readDirectives false [] tokens
    match rest with
    | .documentStart :: rest =>
      if atDocumentEdge rest then return (emptyScalar, rest)
      else readNode (handles ++ defaultHandles) true false fuel rest
    | _ => none
  | _ => readNode defaultHandles true false fuel tokens

/-- Reads a text as one YAML document; more than one is refused. -/
def Document.parse? (text : String) : Option Document := do
  let tokens ← Token.scan? text
  if tokens.isEmpty then return ⟨none, []⟩
  else
    let (root, rest) ← readRoot tokens
    if rest.all (· == .documentEnd) then return .ofRoot root else none

end AtomicCss.Yaml
