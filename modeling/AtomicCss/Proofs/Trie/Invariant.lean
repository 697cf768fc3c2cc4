import AtomicCss.Trie
import Mathlib.Data.List.Induction

/-!
# The shape of a trie

A trie is an array of nodes that point at each other by index, so nothing in its type says that it is a
tree. This module says what shape the array has, shows that the walk of an insertion keeps it, and what the
walk leaves as it was.

## The architecture

* **`childAt_eq_some_iff`**, **`mem_addChild`**, **`ascending_addChild`** — the sorted children of one node:
  searching finds exactly the members, and adding a child adds it and keeps the order.
* **`WellFormed`** — the invariant: children ascend by byte, a child stands behind its parent inside the
  array, and every node but the root is the child of exactly one node under exactly one byte.
* **`grow`** — the one way in which a walk changes the array: a fresh node becomes the child of a node that
  has none for the byte. `wellFormed_grow` and `extends_grow` are the step lemmas.
* **`Extends`** — what a walk keeps: every edge, and the value that any path leads to.
* **`reach_spec`** — the whole walk, by induction on the bytes.
* **`find_injective`** — different paths lead to different nodes.
-/

namespace AtomicCss.Trie

variable {α : Type}

/-! ## The children of one node

The children are kept in ascending order by byte, which is what lets a search stop at the first byte that is
not below the one it looks for. -/

/-- In ascending order by byte, no byte twice. -/
def Ascending (children : List (UInt8 × Nat)) : Prop :=
  children.Pairwise fun a b => a.1 < b.1

/-- **Searching ascending children finds their members**, and nothing else. -/
theorem childAt_eq_some_iff {byte : UInt8} {child : Nat} {children : List (UInt8 × Nat)}
    (h : Ascending children) : childAt byte children = some child ↔ (byte, child) ∈ children := by
  -- the search passes smaller bytes and gives up at a larger one, behind which all are larger still
  induction children with
  | nil => simp [childAt]
  | cons first rest ih =>
    obtain ⟨b, index⟩ := first
    obtain ⟨hfirst, hrest⟩ := List.pairwise_cons.1 h
    have hlt : ∀ {c}, (byte, c) ∈ rest → b < byte := fun hmem => hfirst _ hmem
    simp only [childAt, List.mem_cons, Prod.mk.injEq]
    split
    · rename_i hb
      have hne : byte ≠ b := fun e => UInt8.lt_irrefl b (e ▸ hb)
      simp [ih hrest, hne]
    · rename_i hb
      have hnot : (byte, child) ∉ rest := fun hmem => hb (hlt hmem)
      split
      · rename_i he
        simp [he, hnot, eq_comm]
      · rename_i he
        have hne : byte ≠ b := fun e => he e.symm
        simp [hne, hnot]

theorem childAt_eq_none_iff {byte : UInt8} {children : List (UInt8 × Nat)} (h : Ascending children) :
    childAt byte children = none ↔ ∀ child, (byte, child) ∉ children := by
  simp only [← childAt_eq_some_iff h, Option.eq_none_iff_forall_ne_some, ne_eq]

theorem mem_addChild {byte : UInt8} {index : Nat} {children : List (UInt8 × Nat)} {p : UInt8 × Nat} :
    p ∈ addChild byte index children ↔ p = (byte, index) ∨ p ∈ children := by
  induction children with
  | nil => simp [addChild]
  | cons first rest ih =>
    simp only [addChild]
    split
    · rw [List.mem_cons, ih, List.mem_cons, or_left_comm]
    · rw [List.mem_cons]

/-- Adding a child for a byte that has none keeps the order. -/
theorem ascending_addChild {byte : UInt8} {index : Nat} {children : List (UInt8 × Nat)}
    (h : Ascending children) (hnew : ∀ child, (byte, child) ∉ children) :
    Ascending (addChild byte index children) := by
  induction children with
  | nil => simp [addChild, Ascending]
  | cons first rest ih =>
    obtain ⟨b, i⟩ := first
    obtain ⟨hfirst, hrest⟩ := List.pairwise_cons.1 h
    simp only [addChild]
    split
    · rename_i hb
      refine List.pairwise_cons.2 ⟨fun p hp => ?_, ih hrest fun child hmem => ?_⟩
      · rcases mem_addChild.1 hp with rfl | hp
        · exact hb
        · exact hfirst p hp
      · exact hnew child (List.mem_cons_of_mem _ hmem)
    · rename_i hb
      -- the new child goes in front: its byte is below the first, and the first is below the rest
      have hne : b ≠ byte := fun e => hnew i (by simp [e])
      have hlt : byte < b := UInt8.lt_of_le_of_ne (UInt8.not_lt.1 hb) hne.symm
      refine List.pairwise_cons.2 ⟨fun p hp => ?_, h⟩
      rcases List.mem_cons.1 hp with rfl | hp
      · exact hlt
      · exact UInt8.lt_trans hlt (hfirst p hp)

/-! ## The invariant -/

/-- The array is a tree whose root is the node `0`. -/
structure WellFormed (nodes : Array (Node α)) : Prop where
  root : 0 < nodes.size
  /-- The children of every node ascend by byte. -/
  ascending : ∀ index, Ascending (nodeAt nodes index).children
  /-- A child stands behind its parent, inside the array. -/
  behind : ∀ {index byte child}, (byte, child) ∈ (nodeAt nodes index).children →
    index < child ∧ child < nodes.size
  /-- A node is the child of one node at most, and for one byte. -/
  single : ∀ {index index' byte byte' child}, (byte, child) ∈ (nodeAt nodes index).children →
    (byte', child) ∈ (nodeAt nodes index').children → index = index' ∧ byte = byte'
  /-- Every node but the root is the child of some node. -/
  linked : ∀ {child}, 0 < child → child < nodes.size →
    ∃ index byte, (byte, child) ∈ (nodeAt nodes index).children

/-- The root alone is a tree. -/
theorem wellFormed_empty : WellFormed (Trie.empty : Trie α).nodes where
  root := Nat.one_pos
  ascending index := by cases index <;> exact List.Pairwise.nil
  behind {index _ _} h := by cases index <;> exact absurd h List.not_mem_nil
  single {index _ _ _ _} h _ := by cases index <;> exact absurd h List.not_mem_nil
  linked {child} h h' := by
    have hone : child < 1 := h'
    omega

/-- The shape of an array is that of its edges: values do not matter. -/
theorem WellFormed.congr {nodes nodes' : Array (Node α)} (h : WellFormed nodes)
    (hsize : nodes'.size = nodes.size)
    (hchildren : ∀ index, (nodeAt nodes' index).children = (nodeAt nodes index).children) :
    WellFormed nodes' where
  root := hsize ▸ h.root
  ascending index := by
    rw [hchildren]
    exact h.ascending index
  behind hmem := by
    rw [hchildren] at hmem
    rw [hsize]
    exact h.behind hmem
  single hmem hmem' := by
    rw [hchildren] at hmem hmem'
    exact h.single hmem hmem'
  linked hpos hlt := by
    obtain ⟨index, byte, hmem⟩ := h.linked hpos (hsize ▸ hlt)
    exact ⟨index, byte, by rwa [hchildren]⟩

/-! ## One step of a walk

A walk that finds no child for a byte makes one: a fresh node at the end of the array. -/

/-- The array with a fresh node as the child of the node `index` for a byte. -/
def grow (nodes : Array (Node α)) (index : Nat) (byte : UInt8) : Array (Node α) :=
  (nodes.modify index fun node =>
    { node with children := addChild byte nodes.size node.children }).push {}

theorem reach_cons_of_some {nodes : Array (Node α)} {index child : Nat} {byte : UInt8}
    (h : childAt byte (nodeAt nodes index).children = some child) (rest : List UInt8) :
    reach nodes index (byte :: rest) = reach nodes child rest := by
  simp [reach, h]

theorem reach_cons_of_none {nodes : Array (Node α)} {index : Nat} {byte : UInt8}
    (h : childAt byte (nodeAt nodes index).children = none) (rest : List UInt8) :
    reach nodes index (byte :: rest) = reach (grow nodes index byte) nodes.size rest := by
  simp [reach, h, grow]

/-- A fresh node is one more node. -/
@[simp] theorem size_grow (nodes : Array (Node α)) (index : Nat) (byte : UInt8) :
    (grow nodes index byte).size = nodes.size + 1 := by
  simp [grow]

/-- The nodes behind a step: one node has a child more, and the fresh node is as empty as the place behind
the array was before. -/
theorem nodeAt_grow {nodes : Array (Node α)} {index : Nat} (hindex : index < nodes.size)
    (byte : UInt8) (j : Nat) :
    nodeAt (grow nodes index byte) j =
      if j = index then
        { nodeAt nodes index with children := addChild byte nodes.size (nodeAt nodes index).children }
      else nodeAt nodes j := by
  unfold nodeAt grow
  rw [Array.getElem?_push, Array.size_modify, Array.getElem?_modify]
  by_cases hj : j = index
  · subst hj
    have hne : j ≠ nodes.size := by omega
    simp [hne, hindex]
  · have hj' : index ≠ j := fun e => hj e.symm
    -- the fresh node stands where nothing stood before
    by_cases hsize : j = nodes.size
    · subst hsize
      simp [hj]
    · simp [hsize, hj, hj']

theorem nodeAt_grow_size {nodes : Array (Node α)} {index : Nat} (hindex : index < nodes.size)
    (byte : UInt8) : nodeAt (grow nodes index byte) nodes.size = {} := by
  rw [nodeAt_grow hindex, if_neg (Nat.ne_of_gt hindex)]
  simp [nodeAt]

theorem value_nodeAt_grow {nodes : Array (Node α)} {index : Nat} (hindex : index < nodes.size)
    (byte : UInt8) (j : Nat) :
    (nodeAt (grow nodes index byte) j).value = (nodeAt nodes j).value := by
  rw [nodeAt_grow hindex]
  split
  · rename_i hj
    rw [hj]
  · rfl

theorem mem_children_grow {nodes : Array (Node α)} {index : Nat} (hindex : index < nodes.size)
    {byte b : UInt8} {j child : Nat} :
    (b, child) ∈ (nodeAt (grow nodes index byte) j).children ↔
      (j = index ∧ b = byte ∧ child = nodes.size) ∨ (b, child) ∈ (nodeAt nodes j).children := by
  rw [nodeAt_grow hindex]
  split
  · rename_i hj
    subst hj
    simp [mem_addChild]
  · rename_i hj
    simp [hj]

/-- **A step keeps the shape.** The new edge ends in a node that was not in the array, so it is behind its
parent, and no other edge ends there. -/
theorem wellFormed_grow {nodes : Array (Node α)} (h : WellFormed nodes) {index : Nat}
    (hindex : index < nodes.size) {byte : UInt8}
    (hnone : childAt byte (nodeAt nodes index).children = none) :
    WellFormed (grow nodes index byte) where
  root := by
    rw [size_grow]
    omega
  ascending j := by
    rw [nodeAt_grow hindex]
    split
    -- only the list of the grown node has changed
    · exact ascending_addChild (h.ascending index) ((childAt_eq_none_iff (h.ascending index)).1 hnone)
    · exact h.ascending j
  behind hmem := by
    rw [size_grow]
    rcases (mem_children_grow hindex).1 hmem with ⟨rfl, -, rfl⟩ | hold
    · omega
    · have hb := h.behind hold
      omega
  single hmem hmem' := by
    rcases (mem_children_grow hindex).1 hmem with ⟨rfl, rfl, rfl⟩ | hold
    · rcases (mem_children_grow hindex).1 hmem' with ⟨rfl, rfl, -⟩ | hold'
      · exact ⟨rfl, rfl⟩
      -- an old edge does not end in the fresh node
      · exact absurd (h.behind hold').2 (Nat.lt_irrefl _)
    · rcases (mem_children_grow hindex).1 hmem' with ⟨-, -, rfl⟩ | hold'
      · exact absurd (h.behind hold).2 (Nat.lt_irrefl _)
      · exact h.single hold hold'
  linked hpos hlt := by
    rw [size_grow] at hlt
    -- an old node keeps its parent, and the fresh one is the child of the grown one
    rcases Nat.lt_succ_iff_lt_or_eq.1 hlt with hlt | rfl
    · obtain ⟨j, b, hmem⟩ := h.linked hpos hlt
      exact ⟨j, b, (mem_children_grow hindex).2 (Or.inr hmem)⟩
    · exact ⟨index, byte, (mem_children_grow hindex).2 (Or.inl ⟨rfl, rfl, rfl⟩)⟩

/-! ## What a walk keeps -/

/-- The value that a path leads to. -/
def stored (nodes : Array (Node α)) (index : Nat) (path : List UInt8) : Option α :=
  (find nodes index path).bind fun last => (nodeAt nodes last).value

/-- A later array has all the edges of an earlier one, and every path from an old node leads to the same
value. -/
structure Extends (nodes nodes' : Array (Node α)) : Prop where
  size_le : nodes.size ≤ nodes'.size
  edge : ∀ {index byte child}, childAt byte (nodeAt nodes index).children = some child →
    childAt byte (nodeAt nodes' index).children = some child
  stored_eq : ∀ {index}, index < nodes.size → ∀ path, stored nodes' index path = stored nodes index path

theorem Extends.refl (nodes : Array (Node α)) : Extends nodes nodes :=
  ⟨Nat.le_refl _, id, fun _ _ => rfl⟩

theorem Extends.trans {a b c : Array (Node α)} (hab : Extends a b) (hbc : Extends b c) :
    Extends a c where
  size_le := Nat.le_trans hab.size_le hbc.size_le
  edge h := hbc.edge (hab.edge h)
  stored_eq hindex path := by
    rw [hbc.stored_eq (Nat.lt_of_lt_of_le hindex hab.size_le), hab.stored_eq hindex]

/-- Searching for a child behind a step: the new edge and the old ones. -/
theorem childAt_grow {nodes : Array (Node α)} (h : WellFormed nodes) {index : Nat}
    (hindex : index < nodes.size) {byte : UInt8}
    (hnone : childAt byte (nodeAt nodes index).children = none) (b : UInt8) (j : Nat) :
    childAt b (nodeAt (grow nodes index byte) j).children =
      if j = index ∧ b = byte then some nodes.size else childAt b (nodeAt nodes j).children := by
  have hgrown := wellFormed_grow h hindex hnone
  ext child
  rw [childAt_eq_some_iff (hgrown.ascending j), mem_children_grow hindex]
  split
  · rename_i hnew
    obtain ⟨rfl, rfl⟩ := hnew
    simp [(childAt_eq_none_iff (h.ascending j)).1 hnone child, eq_comm]
  · rename_i hold
    rw [childAt_eq_some_iff (h.ascending j)]
    simp only [← and_assoc, hold, false_and, false_or]

theorem stored_grow_size {nodes : Array (Node α)} {index : Nat} (hindex : index < nodes.size)
    (byte : UInt8) (path : List UInt8) : stored (grow nodes index byte) nodes.size path = none := by
  cases path <;> simp [stored, find, nodeAt_grow_size hindex, childAt]

/-- **A step moves no value.** A path that takes the new edge ends where nothing is stored, and it led nowhere
before. -/
theorem stored_grow {nodes : Array (Node α)} (h : WellFormed nodes) {index : Nat}
    (hindex : index < nodes.size) {byte : UInt8}
    (hnone : childAt byte (nodeAt nodes index).children = none) (path : List UInt8) :
    ∀ j, stored (grow nodes index byte) j path = stored nodes j path := by
  induction path with
  | nil =>
    intro j
    simp [stored, find, value_nodeAt_grow hindex]
  | cons b path ih =>
    intro j
    have hstep := childAt_grow h hindex hnone b j
    by_cases hnew : j = index ∧ b = byte
    · obtain ⟨rfl, rfl⟩ := hnew
      -- the path takes the new edge, which did not exist before
      have hfresh := stored_grow_size hindex b path
      simp only [and_self, if_true] at hstep
      simpa [stored, find, hstep, hnone] using hfresh
    · rw [if_neg hnew] at hstep
      cases hc : childAt b (nodeAt nodes j).children with
      | none => simp [stored, find, hstep, hc]
      | some child => simpa [stored, find, hstep, hc] using ih child

theorem extends_grow {nodes : Array (Node α)} (h : WellFormed nodes) {index : Nat}
    (hindex : index < nodes.size) {byte : UInt8}
    (hnone : childAt byte (nodeAt nodes index).children = none) :
    Extends nodes (grow nodes index byte) where
  size_le := by simp
  edge {j b child} hchild := by
    rw [childAt_grow h hindex hnone, if_neg, hchild]
    rintro ⟨rfl, rfl⟩
    simp [hnone] at hchild
  stored_eq _ path := stored_grow h hindex hnone path _

/-! ## The whole walk -/

/-- **The walk of an insertion** keeps the shape, extends the array, and ends in a node of the array to which
its bytes lead. -/
theorem reach_spec (path : List UInt8) : ∀ {nodes : Array (Node α)} {index : Nat},
    WellFormed nodes → index < nodes.size →
      WellFormed (reach nodes index path).1 ∧ Extends nodes (reach nodes index path).1 ∧
      (reach nodes index path).2 < (reach nodes index path).1.size ∧
      find (reach nodes index path).1 index path = some (reach nodes index path).2 := by
  -- induction on the bytes, for any array and any node to start from
  induction path with
  | nil =>
    intro nodes index h hindex
    exact ⟨h, .refl nodes, hindex, rfl⟩
  | cons byte path ih =>
    intro nodes index h hindex
    cases hc : childAt byte (nodeAt nodes index).children with
    | some child =>
      have hmem := (childAt_eq_some_iff (h.ascending index)).1 hc
      -- the child is there: the array stays as it is, and the walk goes on behind it
      obtain ⟨hwf, hext, hlt, hfind⟩ := ih h (h.behind hmem).2
      rw [reach_cons_of_some hc]
      refine ⟨hwf, hext, hlt, ?_⟩
      simpa [find, hext.edge hc] using hfind
    | none =>
      -- a fresh node is made, and the walk goes on from it
      have hgrown := wellFormed_grow h hindex hc
      have hstep := extends_grow h hindex hc
      have hfresh : nodes.size < (grow nodes index byte).size := by simp
      have hedge : childAt byte (nodeAt (grow nodes index byte) index).children = some nodes.size := by
        rw [childAt_grow h hindex hc, if_pos ⟨rfl, rfl⟩]
      obtain ⟨hwf, hext, hlt, hfind⟩ := ih hgrown hfresh
      rw [reach_cons_of_none hc]
      refine ⟨hwf, hstep.trans hext, hlt, ?_⟩
      simpa [find, hext.edge hedge] using hfind

/-! ## Paths and nodes -/

/-- A path is walked step by step, the last byte last. -/
theorem find_concat (nodes : Array (Node α)) (path : List UInt8) (byte : UInt8) : ∀ index,
    find nodes index (path ++ [byte]) =
      (find nodes index path).bind fun last => childAt byte (nodeAt nodes last).children := by
  induction path with
  | nil =>
    intro index
    cases hc : childAt byte (nodeAt nodes index).children <;> simp [find, hc]
  | cons first path ih =>
    intro index
    cases hc : childAt first (nodeAt nodes index).children with
    | none => simp [find, hc]
    | some child => simpa [find, hc] using ih child

/-- A path never leads back. -/
theorem le_of_find {nodes : Array (Node α)} (h : WellFormed nodes) (path : List UInt8) :
    ∀ {index last : Nat}, find nodes index path = some last → index ≤ last := by
  induction path with
  | nil =>
    intro index last hfind
    exact Nat.le_of_eq (Option.some.inj hfind)
  | cons byte path ih =>
    intro index last hfind
    cases hc : childAt byte (nodeAt nodes index).children with
    | none => simp [find, hc] at hfind
    | some child =>
      have hmem := (childAt_eq_some_iff (h.ascending index)).1 hc
      have hrest := ih (by simpa [find, hc] using hfind)
      exact Nat.le_trans (Nat.le_of_lt (h.behind hmem).1) hrest

/-- **Different paths lead to different nodes.** The last step into a node comes from its only parent, so two
paths to one node agree from the end; neither can stop short, since a child stands behind its parent. -/
theorem find_injective {nodes : Array (Node α)} (h : WellFormed nodes) {index : Nat}
    (path : List UInt8) : ∀ {path' : List UInt8} {last : Nat},
      find nodes index path = some last → find nodes index path' = some last → path = path' := by
  -- a path with a step leads behind its start
  have hback : ∀ {p : List UInt8} {b : UInt8}, find nodes index (p ++ [b]) ≠ some index := by
    intro p b hfind
    rw [find_concat] at hfind
    obtain ⟨parent, hparent, hchild⟩ := Option.bind_eq_some_iff.1 hfind
    have hmem := (childAt_eq_some_iff (h.ascending parent)).1 hchild
    exact absurd (h.behind hmem).1 (Nat.not_lt.2 (le_of_find h p hparent))
  -- induction on the first path from its end
  induction path using List.reverseRecOn with
  | nil =>
    intro path' last hfind hfind'
    obtain rfl : index = last := Option.some.inj hfind
    rcases List.eq_nil_or_concat path' with rfl | ⟨p, b, rfl⟩
    · rfl
    · rw [List.concat_eq_append] at hfind'
      exact absurd hfind' hback
  | append_singleton path byte ih =>
    intro path' last hfind hfind'
    rcases List.eq_nil_or_concat path' with rfl | ⟨p, b, rfl⟩
    · obtain rfl : index = last := Option.some.inj hfind'
      exact absurd hfind hback
    · rw [List.concat_eq_append] at hfind' ⊢
      rw [find_concat] at hfind hfind'
      obtain ⟨parent, hparent, hchild⟩ := Option.bind_eq_some_iff.1 hfind
      obtain ⟨parent', hparent', hchild'⟩ := Option.bind_eq_some_iff.1 hfind'
      have hmem := (childAt_eq_some_iff (h.ascending parent)).1 hchild
      have hmem' := (childAt_eq_some_iff (h.ascending parent')).1 hchild'
      -- both last steps end in one node, so they leave the same parent under the same byte
      obtain ⟨rfl, rfl⟩ := h.single hmem hmem'
      rw [ih hparent hparent']

end AtomicCss.Trie
