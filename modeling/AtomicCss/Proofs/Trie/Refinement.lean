import AtomicCss.Proofs.Trie.Invariant
import Mathlib.Data.Finset.Card

/-!
# A trie is a finite map

What the operations of a trie mean, said without the nodes: an insertion sets the value of one key and
leaves every other key alone, so after any list of insertions a key has the value that was inserted last
under exactly that key.

## The architecture

* **`bytes_injective`** — different keys have different bytes, so they have different paths.
* **`store`** — the last act of an insertion, writing a value into a node. `stored_store` says that it
  changes what one path leads to; that is `find_injective` at work.
* **`search_insert`**, **`size_insert`**, **`wellFormed_insert`** — one insertion (the step).
* **`wellFormed_ofList`**, **`search_ofList`**, **`size_ofList`** — any list of insertions (the run), by
  induction on the list from its end.
* **`ofList_refines_map`** — all operations on such a trie, in terms of the list.
-/

namespace AtomicCss.Trie

variable {α : Type}

/-! ## Keys and paths -/

theorem bytes_injective : Function.Injective bytes := by
  intro key key' h
  have harray : key.toByteArray.data = key'.toByteArray.data := Array.toList_inj.1 h
  exact String.toByteArray_inj.1 (ByteArray.ext harray)

/-- Where a path leads depends on the edges alone. -/
theorem find_congr {nodes nodes' : Array (Node α)}
    (h : ∀ index, (nodeAt nodes' index).children = (nodeAt nodes index).children)
    (path : List UInt8) : ∀ index, find nodes' index path = find nodes index path := by
  induction path with
  | nil =>
    intro index
    rfl
  | cons byte path ih =>
    intro index
    simp only [find, h, ih]

/-- A path that starts in the array stays in it. -/
theorem lt_of_find {nodes : Array (Node α)} (h : WellFormed nodes) (path : List UInt8) :
    ∀ {index last : Nat}, index < nodes.size → find nodes index path = some last →
      last < nodes.size := by
  induction path with
  | nil =>
    intro index last hindex hfind
    exact Option.some.inj hfind ▸ hindex
  | cons byte path ih =>
    intro index last _ hfind
    cases hc : childAt byte (nodeAt nodes index).children with
    | none => simp [find, hc] at hfind
    | some child =>
      have hmem := (childAt_eq_some_iff (h.ascending index)).1 hc
      exact ih (h.behind hmem).2 (by simpa [find, hc] using hfind)

/-! ## Writing a value -/

/-- The array with a value written into the node `index`. -/
def store (nodes : Array (Node α)) (index : Nat) (value : α) : Array (Node α) :=
  nodes.modify index fun node => { node with value := some value }

/-- Writing adds no node. -/
@[simp] theorem size_store (nodes : Array (Node α)) (index : Nat) (value : α) :
    (store nodes index value).size = nodes.size := by
  simp [store]

theorem nodeAt_store {nodes : Array (Node α)} {index : Nat} (hindex : index < nodes.size) (value : α)
    (j : Nat) :
    nodeAt (store nodes index value) j =
      if j = index then { nodeAt nodes index with value := some value } else nodeAt nodes j := by
  unfold nodeAt store
  rw [Array.getElem?_modify]
  by_cases hj : j = index
  · subst hj
    simp [hindex]
  · have hj' : index ≠ j := fun e => hj e.symm
    simp [hj, hj']

theorem children_nodeAt_store {nodes : Array (Node α)} {index : Nat} (hindex : index < nodes.size)
    (value : α) (j : Nat) :
    (nodeAt (store nodes index value) j).children = (nodeAt nodes j).children := by
  rw [nodeAt_store hindex]
  split
  · rename_i hj
    rw [hj]
  · rfl

/-- **Writing at the end of a path** changes what this path leads to and nothing else: another path ends in
another node. -/
theorem stored_store {nodes : Array (Node α)} (h : WellFormed nodes) {path : List UInt8} {last : Nat}
    (hpath : find nodes 0 path = some last) (value : α) (path' : List UInt8) :
    stored (store nodes last value) 0 path' = if path' = path then some value else stored nodes 0 path' := by
  have hlast := lt_of_find h path h.root hpath
  have hfind := find_congr (children_nodeAt_store hlast value) path' 0
  unfold stored
  rw [hfind]
  split
  · rename_i heq
    rw [heq, hpath, Option.bind_some, nodeAt_store hlast, if_pos rfl]
  · rename_i hne
    cases hc : find nodes 0 path' with
    | none => rfl
    | some last' =>
      -- a path that is not the key's ends in another node, which is not written
      have hother : last' ≠ last := by
        rintro rfl
        exact hne (find_injective h path' hc hpath)
      rw [Option.bind_some, Option.bind_some, nodeAt_store hlast, if_neg hother]

/-! ## One insertion -/

theorem nodes_insert (trie : Trie α) (key : String) (value : α) :
    (trie.insert key value).nodes =
      store (reach trie.nodes 0 (bytes key)).1 (reach trie.nodes 0 (bytes key)).2 value := rfl

/-- A search takes the path of its key from the root. -/
theorem search_eq_stored (trie : Trie α) (key : String) :
    trie.search key = stored trie.nodes 0 (bytes key) := rfl

theorem wellFormed_insert {trie : Trie α} (h : WellFormed trie.nodes) (key : String) (value : α) :
    WellFormed (trie.insert key value).nodes := by
  -- the walk keeps the shape, and the write touches no edge
  obtain ⟨hwf, -, hlt, -⟩ := reach_spec (bytes key) h h.root
  rw [nodes_insert]
  exact hwf.congr (size_store ..) (children_nodeAt_store hlt value)

/-- **An insertion sets one key**: that key has the new value, and every other key what it had. -/
theorem search_insert {trie : Trie α} (h : WellFormed trie.nodes) (key : String) (value : α)
    (query : String) :
    (trie.insert key value).search query = if query = key then some value else trie.search query := by
  obtain ⟨hwf, hext, -, hfind⟩ := reach_spec (bytes key) h h.root
  -- the write changes one path, and the walk before it none
  rw [search_eq_stored, nodes_insert, stored_store hwf hfind, hext.stored_eq h.root]
  simp only [bytes_injective.eq_iff, search_eq_stored]

/-- **An insertion counts a new key**, and a key that has a value only once. -/
theorem size_insert {trie : Trie α} (h : WellFormed trie.nodes) (key : String) (value : α) :
    (trie.insert key value).size = if (trie.search key).isSome then trie.size else trie.size + 1 := by
  obtain ⟨-, hext, -, hfind⟩ := reach_spec (bytes key) h h.root
  -- the node that the walk ends in holds what the key had before
  have hvalue : (nodeAt (reach trie.nodes 0 (bytes key)).1 (reach trie.nodes 0 (bytes key)).2).value =
      trie.search key := by
    rw [search_eq_stored, ← hext.stored_eq h.root]
    unfold stored
    rw [hfind, Option.bind_some]
  rw [← hvalue]
  rfl

/-! ## Any list of insertions -/

/-- A list of insertions is all but the last one, and then the last one. -/
theorem ofList_concat (pairs : List (String × α)) (p : String × α) :
    ofList (pairs ++ [p]) = (ofList pairs).insert p.1 p.2 := by
  simp [ofList]

/-- **Every trie that is built by insertions is a tree.** -/
theorem wellFormed_ofList (pairs : List (String × α)) : WellFormed (ofList pairs).nodes := by
  induction pairs using List.reverseRecOn with
  | nil => exact wellFormed_empty
  | append_singleton pairs p ih =>
    rw [ofList_concat]
    exact wellFormed_insert ih p.1 p.2

/-- **The last insertion of a key counts.** -/
theorem search_ofList (pairs : List (String × α)) (query : String) :
    (ofList pairs).search query = ((pairs.filter fun p => p.1 = query).getLast?).map Prod.snd := by
  induction pairs using List.reverseRecOn with
  | nil =>
    cases h : bytes query <;> simp [ofList, empty, search, find, h, nodeAt, childAt]
  | append_singleton pairs p ih =>
    rw [ofList_concat, search_insert (wellFormed_ofList pairs), ih]
    by_cases hp : p.1 = query
    · simp [hp]
    · have hp' : query ≠ p.1 := fun e => hp e.symm
      simp [hp, hp']

/-- A value that is found was inserted under the key. -/
theorem mem_of_search_ofList {pairs : List (String × α)} {query : String} {value : α}
    (h : (ofList pairs).search query = some value) : (query, value) ∈ pairs := by
  rw [search_ofList] at h
  obtain ⟨⟨key, v⟩, hlast, rfl⟩ := Option.map_eq_some_iff.1 h
  obtain ⟨hmem, hkey⟩ := List.mem_filter.1 (List.mem_of_getLast? hlast)
  obtain rfl : key = query := by simpa using hkey
  exact hmem

/-- A key is found exactly if some insertion used it. -/
theorem isSome_search_ofList (pairs : List (String × α)) (query : String) :
    ((ofList pairs).search query).isSome ↔ query ∈ pairs.map Prod.fst := by
  rw [search_ofList, Option.isSome_map, Option.isSome_iff_ne_none, ne_eq, List.getLast?_eq_none_iff,
    List.filter_eq_nil_iff]
  simp

/-- **The size counts the distinct keys.** -/
theorem size_ofList (pairs : List (String × α)) :
    (ofList pairs).size = (pairs.map Prod.fst).toFinset.card := by
  induction pairs using List.reverseRecOn with
  | nil => rfl
  | append_singleton pairs p ih =>
    rw [ofList_concat, size_insert (wellFormed_ofList pairs), List.map_append, List.toFinset_append,
      List.map_singleton, List.toFinset_cons, List.toFinset_nil, insert_empty_eq, Finset.union_singleton]
    -- the last pair counts if its key is new
    by_cases hp : p.1 ∈ pairs.map Prod.fst
    · rw [if_pos ((isSome_search_ofList pairs p.1).2 hp), ih,
        Finset.insert_eq_self.2 (List.mem_toFinset.2 hp)]
    · rw [if_neg fun hsome => hp ((isSome_search_ofList pairs p.1).1 hsome), ih,
        Finset.card_insert_of_notMem fun hmem => hp (List.mem_toFinset.1 hmem)]

/-- **A trie is a finite map from keys to values.** After any list of insertions, a search finds the value of
the last insertion under exactly the key it asks for, and nothing if no insertion used that key; the trie
contains the keys that were inserted, its size is the number of different ones, and it is empty exactly if
nothing was inserted. -/
theorem ofList_refines_map (pairs : List (String × α)) (query : String) :
    (ofList pairs).search query = ((pairs.filter fun p => p.1 = query).getLast?).map Prod.snd ∧
    ((ofList pairs).search query = none ↔ query ∉ pairs.map Prod.fst) ∧
    ((ofList pairs).contains query = true ↔ query ∈ pairs.map Prod.fst) ∧
    (ofList pairs).size = (pairs.map Prod.fst).toFinset.card ∧
    ((ofList pairs).isEmpty = true ↔ pairs = []) := by
  refine ⟨search_ofList pairs query, ?_, isSome_search_ofList pairs query, size_ofList pairs, ?_⟩
  · rw [← isSome_search_ofList, Option.isSome_iff_ne_none, not_not]
  · rw [isEmpty, beq_iff_eq, size_ofList, Finset.card_eq_zero, List.toFinset_eq_empty_iff,
      List.map_eq_nil_iff]

end AtomicCss.Trie
