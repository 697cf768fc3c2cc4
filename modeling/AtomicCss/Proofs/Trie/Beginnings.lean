import AtomicCss.Proofs.Trie.Refinement
import Mathlib.Data.List.Infix

/-!
# The nodes of a trie are the beginnings of its keys

An insertion walks down the bytes of its key and makes the nodes that are missing. So there is a node for every
beginning of a key, the root being the one for no bytes, and there are no others: keys share the nodes of what they
begin with in common. The tree has as many nodes as this says, and since a child stands inside the array, an index
never needs more room than the number of nodes does.

## The architecture

* **`exists_find`** — every node is the end of a path from the root. With `find_injective` paths and nodes
  correspond, so that the nodes can be counted by their paths (`size_eq_card`).
* **`find_grow`** — what one step does to the paths: it opens the one to the fresh node and moves no other.
* **`isSome_find_reach`** — the whole walk, by induction on the bytes: it opens the beginnings of the path walked.
* **`beginnings`**, **`isSome_find_ofList`**, **`size_nodes_ofList`** — any list of insertions, by induction from its
  end: a path leads somewhere exactly if it is empty or the beginning of a key.
* **`ofList_is_tree_of_beginnings`** — the shape of the array and the number of its nodes.
-/

namespace AtomicCss.Trie

variable {α : Type}

/-! ## Nodes and paths -/

/-- **Every node but the root has one parent**, and is its child for one byte. -/
theorem WellFormed.existsUnique_parent {nodes : Array (Node α)} (h : WellFormed nodes) {child : Nat}
    (hpos : 0 < child) (hlt : child < nodes.size) :
    ∃! parent : Nat × UInt8, (parent.2, child) ∈ (nodeAt nodes parent.1).children := by
  obtain ⟨index, byte, hmem⟩ := h.linked hpos hlt
  refine ⟨(index, byte), hmem, fun other hother => ?_⟩
  obtain ⟨hindex, hbyte⟩ := h.single hother hmem
  exact Prod.ext hindex hbyte

/-- **Every node is the end of a path from the root**: that to its parent, and then the byte. -/
theorem exists_find {nodes : Array (Node α)} (h : WellFormed nodes) (node : Nat) :
    node < nodes.size → ∃ path, find nodes 0 path = some node := by
  -- a parent stands in front of its children
  induction node using Nat.strongRecOn with
  | ind node ih =>
    intro hlt
    rcases Nat.eq_zero_or_pos node with rfl | hpos
    · exact ⟨[], rfl⟩
    · obtain ⟨parent, byte, hmem⟩ := h.linked hpos hlt
      have hfront := (h.behind hmem).1
      obtain ⟨path, hpath⟩ := ih parent hfront (Nat.lt_trans hfront hlt)
      refine ⟨path ++ [byte], ?_⟩
      rw [find_concat, hpath, Option.bind_some]
      exact (childAt_eq_some_iff (h.ascending parent)).2 hmem

/-- **The nodes are counted by their paths**: each is the end of exactly one. -/
theorem size_eq_card {nodes : Array (Node α)} (h : WellFormed nodes) {paths : Finset (List UInt8)}
    (hpaths : ∀ path, path ∈ paths ↔ (find nodes 0 path).isSome) : nodes.size = paths.card := by
  rw [← Finset.card_range nodes.size]
  -- a path stands for its end: that is a node, of no other path, and every node is one
  refine (Finset.card_bij (fun path hpath => (find nodes 0 path).get ((hpaths path).1 hpath)) ?_ ?_ ?_).symm
  · intro path hpath
    exact Finset.mem_range.2 (lt_of_find h path h.root (Option.some_get _).symm)
  · intro path hpath path' hpath' hsame
    refine find_injective h path (Option.some_get ((hpaths path).1 hpath)).symm ?_
    rw [hsame, Option.some_get]
  · intro node hnode
    obtain ⟨path, hpath⟩ := exists_find h node (Finset.mem_range.1 hnode)
    have hsome : (find nodes 0 path).isSome := by rw [hpath, Option.isSome_some]
    exact ⟨path, (hpaths path).2 hsome, Option.get_of_eq_some _ hpath⟩

/-- What a path that leads somewhere begins with leads somewhere too. -/
theorem isSome_find_of_prefix {nodes : Array (Node α)} {index : Nat} {p : List UInt8} (path : List UInt8) :
    p <+: path → (find nodes index path).isSome → (find nodes index p).isSome := by
  induction path using List.reverseRecOn with
  | nil =>
    intro hp hsome
    rwa [List.prefix_nil.1 hp]
  | append_singleton path byte ih =>
    intro hp hsome
    rcases List.prefix_concat_iff.1 hp with rfl | hp
    · exact hsome
    · rw [find_concat] at hsome
      exact ih hp (Option.isSome_of_isSome_bind hsome)

/-! ## What a walk opens -/

/-- **A step opens one path and moves no other**: that to the grown node, followed by the byte, leads to the fresh
node. -/
theorem find_grow {nodes : Array (Node α)} (h : WellFormed nodes) {index : Nat} (hindex : index < nodes.size)
    {byte : UInt8} (hnone : childAt byte (nodeAt nodes index).children = none) {route : List UInt8}
    (hroute : find nodes 0 route = some index) (path : List UInt8) :
    find (grow nodes index byte) 0 path =
      if path = route ++ [byte] then some nodes.size else find nodes 0 path := by
  induction path using List.reverseRecOn with
  | nil => simp [find]
  | append_singleton path b ih =>
    rw [find_concat, find_concat, ih]
    by_cases hnew : path = route ++ [byte]
    · -- the fresh node has no children, and before the step its path led nowhere
      subst hnew
      have hbefore : find nodes 0 (route ++ [byte]) = none := by
        rw [find_concat, hroute, Option.bind_some, hnone]
      simp [nodeAt_grow_size hindex, childAt, hbefore]
    · rw [if_neg hnew]
      cases hlast : find nodes 0 path with
      | none =>
        have hne : path ≠ route := fun heq => by simp [heq, hroute] at hlast
        simp [hne]
      | some last =>
        -- the path ends in the grown node exactly if it is the route
        have hlast_iff : last = index ↔ path = route :=
          ⟨fun heq => find_injective h path hlast (heq ▸ hroute),
            fun heq => Option.some.inj (hlast.symm.trans (heq ▸ hroute))⟩
        rw [Option.bind_some, Option.bind_some, childAt_grow h hindex hnone]
        simp only [hlast_iff, List.append_singleton_inj]

/-- **A walk opens the beginnings of the path walked** and no other path. -/
theorem isSome_find_reach (path : List UInt8) : ∀ {nodes : Array (Node α)} {index : Nat} {route : List UInt8},
    WellFormed nodes → index < nodes.size → find nodes 0 route = some index → ∀ p : List UInt8,
      (find (reach nodes index path).1 0 p).isSome ↔ (find nodes 0 p).isSome ∨ p <+: route ++ path := by
  -- induction on the bytes that are left; the route is what has been walked of the path before
  induction path with
  | nil =>
    intro nodes index route _ _ hroute p
    have hbefore : p <+: route ++ [] → (find nodes 0 p).isSome := fun hp => by
      rw [List.append_nil] at hp
      exact isSome_find_of_prefix route hp (by rw [hroute, Option.isSome_some])
    exact (or_iff_left_of_imp hbefore).symm
  | cons byte path ih =>
    intro nodes index route h hindex hroute p
    have hsplit : route ++ byte :: path = (route ++ [byte]) ++ path := List.append_cons ..
    cases hc : childAt byte (nodeAt nodes index).children with
    | some child =>
      have hmem := (childAt_eq_some_iff (h.ascending index)).1 hc
      have hnext : find nodes 0 (route ++ [byte]) = some child := by
        rw [find_concat, hroute, Option.bind_some, hc]
      rw [reach_cons_of_some hc, ih h (h.behind hmem).2 hnext, hsplit]
    | none =>
      have hgrown := find_grow h hindex hc hroute
      have hnext : find (grow nodes index byte) 0 (route ++ [byte]) = some nodes.size := by
        rw [hgrown, if_pos rfl]
      have hfresh : nodes.size < (grow nodes index byte).size := by simp
      rw [reach_cons_of_none hc, ih (wellFormed_grow h hindex hc) hfresh hnext, hsplit, hgrown]
      -- the path that the step opens is itself a beginning of the path walked
      split
      · rename_i hp
        have hbegins : p <+: (route ++ [byte]) ++ path := hp ▸ List.prefix_append _ _
        exact iff_of_true (.inl rfl) (.inr hbegins)
      · rfl

theorem isSome_find_insert {trie : Trie α} (h : WellFormed trie.nodes) (key : String) (value : α)
    (path : List UInt8) :
    (find (trie.insert key value).nodes 0 path).isSome ↔
      (find trie.nodes 0 path).isSome ∨ path <+: bytes key := by
  obtain ⟨-, -, hlt, -⟩ := reach_spec (bytes key) h h.root
  have hroot : find trie.nodes 0 [] = some 0 := rfl
  rw [nodes_insert, find_congr (children_nodeAt_store hlt value)]
  exact isSome_find_reach (bytes key) h h.root hroot path

/-! ## Any list of insertions -/

/-- The beginnings of the keys, as bytes, without the empty one. -/
def beginnings (keys : List String) : Finset (List UInt8) :=
  (keys.flatMap fun key => (bytes key).inits).toFinset.erase []

theorem mem_beginnings {keys : List String} {path : List UInt8} :
    path ∈ beginnings keys ↔ path ≠ [] ∧ ∃ key ∈ keys, path <+: bytes key := by
  simp [beginnings, List.mem_inits]

/-- **The paths of a trie are the beginnings of its keys**, and the empty path. -/
theorem isSome_find_ofList (pairs : List (String × α)) (path : List UInt8) :
    (find (ofList pairs).nodes 0 path).isSome ↔ path = [] ∨ path ∈ beginnings (pairs.map Prod.fst) := by
  induction pairs using List.reverseRecOn with
  | nil => cases path <;> simp [ofList, empty, find, nodeAt, childAt, beginnings]
  | append_singleton pairs p ih =>
    rw [ofList_concat, isSome_find_insert (wellFormed_ofList pairs), ih, mem_beginnings, mem_beginnings]
    by_cases hpath : path = []
    · simp [hpath]
    · simp [hpath, or_and_right, exists_or]

/-- **A trie has one node for each beginning of a key**, and the root. -/
theorem size_nodes_ofList (pairs : List (String × α)) :
    (ofList pairs).nodes.size = 1 + (beginnings (pairs.map Prod.fst)).card := by
  have hroot : ([] : List UInt8) ∉ beginnings (pairs.map Prod.fst) := fun hmem => (mem_beginnings.1 hmem).1 rfl
  rw [Nat.add_comm, ← Finset.card_insert_of_notMem hroot]
  refine size_eq_card (wellFormed_ofList pairs) fun path => ?_
  rw [Finset.mem_insert, isSome_find_ofList]

/-- **The array of a trie is a tree of the beginnings of its keys.** After any list of insertions the children of every
node ascend strictly by byte; a child stands behind its parent, inside the array; every node but the root, which stands
in front, is the child of exactly one node, for exactly one byte; and there is one node more than the keys have
different beginnings that are not empty. -/
theorem ofList_is_tree_of_beginnings (pairs : List (String × α)) :
    (∀ index, Ascending (nodeAt (ofList pairs).nodes index).children) ∧
    (∀ index, ∀ edge ∈ (nodeAt (ofList pairs).nodes index).children,
      index < edge.2 ∧ edge.2 < (ofList pairs).nodes.size) ∧
    (∀ child, 0 < child → child < (ofList pairs).nodes.size →
      ∃! parent : Nat × UInt8, (parent.2, child) ∈ (nodeAt (ofList pairs).nodes parent.1).children) ∧
    (ofList pairs).nodes.size = 1 + (beginnings (pairs.map Prod.fst)).card := by
  have h := wellFormed_ofList pairs
  exact ⟨h.ascending, fun _ _ hedge => h.behind hedge, fun _ hpos hlt => h.existsUnique_parent hpos hlt,
    size_nodes_ofList pairs⟩

/-- The keys `flex` and `flow` share the nodes of `f` and `fl`, so there are six nodes besides the root. The one of
`flo` is the child of that of `fl` and of no other node. -/
theorem flex_and_flow_share_nodes :
    (0 < 5 ∧ 5 < (ofList [("flex", 1), ("flow", 2)]).nodes.size) ∧
    (111, 5) ∈ (nodeAt (ofList [("flex", 1), ("flow", 2)]).nodes 2).children ∧ 2 < 5 ∧
    (∃! parent : Nat × UInt8,
      (parent.2, 5) ∈ (nodeAt (ofList [("flex", 1), ("flow", 2)]).nodes parent.1).children) ∧
    (ofList [("flex", 1), ("flow", 2)]).nodes.size = 1 + 6 := by
  obtain ⟨-, hedge, hparent, hsize⟩ := ofList_is_tree_of_beginnings [("flex", 1), ("flow", 2)]
  have hcard : (beginnings ["flex", "flow"]).card = 6 := by decide +kernel
  have hseven : (ofList [("flex", 1), ("flow", 2)]).nodes.size = 1 + 6 := hcard ▸ hsize
  have hlt : 5 < (ofList [("flex", 1), ("flow", 2)]).nodes.size := by omega
  have hmem : (111, 5) ∈ (nodeAt (ofList [("flex", 1), ("flow", 2)]).nodes 2).children := by decide +kernel
  exact ⟨⟨by decide, hlt⟩, hmem, (hedge 2 _ hmem).1, hparent 5 (by decide) hlt, hseven⟩

end AtomicCss.Trie
