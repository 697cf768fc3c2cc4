/-!
# Tries over the bytes of a key

A utility is looked up by its exact name. The names are kept in a trie over their UTF-8 bytes, stored
as an array of nodes: node `0` is the root, a node lists its children as pairs of a byte and a node
index, sorted by byte, and a key's value stands in the node that its bytes lead to. Nodes are only ever
appended, so a child's index is larger than its parent's.

* `Trie.insert` — store a value under a key, replacing an earlier one;
* `Trie.search` — the value stored under exactly this key: a key that merely begins stored keys misses;
* `Trie.size` — how many keys have a value;
* `Trie.ofList` — all pairs of a list inserted in order.
-/

namespace AtomicCss

/-- A node: its children sorted by byte, and the value of the key that ends here. -/
structure Trie.Node (α : Type) where
  /-- The children: the byte that leads to each and its place in the array, ascending by byte. -/
  children : List (UInt8 × Nat) := []
  /-- The value of the key that ends here. -/
  value : Option α := none
  deriving DecidableEq

/-- A map from keys to values, as an array of nodes whose first is the root. -/
structure Trie (α : Type) where
  /-- The nodes, each behind its parent. -/
  nodes : Array (Trie.Node α)
  /-- The number of nodes that hold a value. -/
  size : Nat

namespace Trie

variable {α : Type}

/-! ## Children of one node -/

/-- The child that a byte leads to, in a list sorted by byte. -/
def childAt (byte : UInt8) : List (UInt8 × Nat) → Option Nat
  | [] => none
  | (b, index) :: rest =>
    if b < byte then childAt byte rest else if b = byte then some index else none

/-- The list of children with one more, put where the order by byte wants it. -/
def addChild (byte : UInt8) (index : Nat) : List (UInt8 × Nat) → List (UInt8 × Nat)
  | [] => [(byte, index)]
  | (b, i) :: rest =>
    if b < byte then (b, i) :: addChild byte index rest else (byte, index) :: (b, i) :: rest

/-- The node at an index; an index out of range stands for a node without children. -/
def nodeAt (nodes : Array (Node α)) (index : Nat) : Node α :=
  nodes[index]?.getD {}

/-! ## Walking down -/

/-- The node that a list of bytes leads to, adding the nodes that are missing on the way. -/
def reach (nodes : Array (Node α)) (index : Nat) : List UInt8 → Array (Node α) × Nat
  | [] => (nodes, index)
  | byte :: bytes =>
    match childAt byte (nodeAt nodes index).children with
    | some child => reach nodes child bytes
    | none =>
      let child := nodes.size
      let grown := nodes.modify index fun node =>
        { node with children := addChild byte child node.children }
      reach (grown.push {}) child bytes

/-- The node that a list of bytes leads to, if all of the way is there. -/
def find (nodes : Array (Node α)) (index : Nat) : List UInt8 → Option Nat
  | [] => some index
  | byte :: bytes =>
    match childAt byte (nodeAt nodes index).children with
    | some child => find nodes child bytes
    | none => none

/-- The UTF-8 bytes of a key. -/
def bytes (key : String) : List UInt8 :=
  key.toUTF8.data.toList

/-! ## The operations -/

/-- The trie that holds nothing: a root alone. -/
def empty : Trie α :=
  ⟨#[{}], 0⟩

instance : EmptyCollection (Trie α) := ⟨empty⟩

/-- The trie in which `key` has the value `value`. -/
def insert (trie : Trie α) (key : String) (value : α) : Trie α :=
  let (nodes, index) := reach trie.nodes 0 (bytes key)
  { size := if (nodeAt nodes index).value.isSome then trie.size else trie.size + 1
    nodes := nodes.modify index fun node => { node with value := some value } }

/-- The value stored under exactly this key. -/
def search (trie : Trie α) (key : String) : Option α :=
  (find trie.nodes 0 (bytes key)).bind fun index => (nodeAt trie.nodes index).value

/-- Whether a value is stored under exactly this key. -/
def contains (trie : Trie α) (key : String) : Bool :=
  (trie.search key).isSome

/-- Whether no key has a value. -/
def isEmpty (trie : Trie α) : Bool :=
  trie.size == 0

/-- All pairs of a list inserted in order, so the last value of a repeated key stays. -/
def ofList (pairs : List (String × α)) : Trie α :=
  pairs.foldl (fun trie p => trie.insert p.1 p.2) empty

end Trie

end AtomicCss
