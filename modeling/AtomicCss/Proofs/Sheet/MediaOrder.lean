import AtomicCss.Proofs.Sheet.Placement
import Mathlib.Order.Bounds.Basic

/-!
# The order of the media blocks of a sheet

A media block on its own keeps the least priority of its rules, and the blocks are written in ascending order
of what they keep, by a stable sort. Media blocks inside a container query keep no priority and are written in
the order in which they first came.

## The architecture

* **`Rule.Ranks`** — a rule stands in a media query with some priority.
* **`get?_media_add_of_ranks`**, **`get?_media_add_of_not`** — one step: a rule goes into its own block and
  touches no other. `isLeast_priority_add` is what that does to the least priority.
* **`isLeast_priority_ofRules`** — a whole run: a block keeps the least priority of its rules.
* **`pairwise_sortedMedia`** — the blocks ascend, and of two with the same priority the one that came first is
  written first.
-/

namespace AtomicCss

/-- A rule stands in a media query, inside this container query or outside of all, with this priority. -/
def Rule.Ranks (rule : Rule) (container : Option String) (query : String) (priority : Nat) : Prop :=
  rule.container = container ∧ rule.media = some ⟨query, priority⟩

theorem Rule.Ranks.standsIn {rule : Rule} {container : Option String} {query : String} {priority : Nat}
    (h : rule.Ranks container query priority) : rule.StandsIn container (some query) :=
  ⟨h.1, by rw [h.2]; rfl⟩

theorem Rule.StandsIn.exists_ranks {rule : Rule} {container : Option String} {query : String}
    (h : rule.StandsIn container (some query)) : ∃ priority, rule.Ranks container query priority := by
  obtain ⟨hcontainer, hmedia⟩ := h
  obtain ⟨media, hsome, rfl⟩ := Option.map_eq_some_iff.1 hmedia
  exact ⟨media.priority, hcontainer, hsome⟩

theorem Rule.Ranks.unique {rule : Rule} {container : Option String} {query : String} {priority priority' : Nat}
    (h : rule.Ranks container query priority) (h' : rule.Ranks container query priority') :
    priority = priority' := by
  have hmedia := h.2.symm.trans h'.2
  cases hmedia
  rfl

/-- A rule stands in one media query. -/
theorem Rule.Ranks.not_standsIn {rule : Rule} {container : Option String} {query query' : String}
    {priority : Nat} (h : rule.Ranks container query priority) (hne : query ≠ query') :
    ¬ rule.StandsIn container (some query') := by
  intro hstands
  obtain ⟨priority', h'⟩ := hstands.exists_ranks
  have hmedia := h.2.symm.trans h'.2
  cases hmedia
  exact hne rfl

namespace Sheet

variable {sheet : Sheet} {rule : Rule} {query : String}

/-! ## One rule -/

theorem media_addKeyframes (sheet : Sheet) (name : Option String) :
    (sheet.addKeyframes name).media = sheet.media := by
  cases name <;> rfl

/-- A rule goes into the block of its media query, with its priority. -/
theorem get?_media_add_of_ranks {priority : Nat} (h : rule.Ranks none query priority) :
    (sheet.add rule).media.get? query = some (MediaBlock.add priority rule (sheet.media.get? query)) := by
  rw [add, addRule, h.1, h.2]
  dsimp only
  rw [OrderedMap.get?_alter, if_pos rfl, media_addKeyframes]

/-- A rule touches no other block. -/
theorem get?_media_add_of_not (h : ¬ rule.StandsIn none (some query)) :
    (sheet.add rule).media.get? query = sheet.media.get? query := by
  rw [add, addRule]
  split
  · rw [media_addKeyframes]
  · rename_i media hcontainer hmedia
    have hne : query ≠ media.query := by
      rintro rfl
      exact h ⟨hcontainer, by rw [hmedia]; rfl⟩
    dsimp only
    rw [OrderedMap.get?_alter, if_neg hne, media_addKeyframes]
  · rw [media_addKeyframes]

/-- A rule that stands in a block brings its priority into the minimum, and any other leaves it alone. -/
theorem isLeast_priority_add {ranks : Set Nat} {block : MediaBlock}
    (hold : ∀ old, sheet.media.get? query = some old → IsLeast ranks old.priority)
    (hnone : sheet.media.get? query = none → ranks = ∅)
    (h : (sheet.add rule).media.get? query = some block) :
    IsLeast ({p | rule.Ranks none query p} ∪ ranks) block.priority := by
  by_cases hstands : rule.StandsIn none (some query)
  · obtain ⟨priority, hranks⟩ := hstands.exists_ranks
    have hown : {p | rule.Ranks none query p} = {priority} :=
      Set.eq_singleton_iff_unique_mem.2 ⟨hranks, fun p hp => Rule.Ranks.unique hp hranks⟩
    rw [get?_media_add_of_ranks hranks] at h
    rw [hown, Set.singleton_union]
    cases hget : sheet.media.get? query with
    | some old =>
      rw [hget] at h
      cases h
      have hmin : min old.priority priority = min priority old.priority := Nat.min_comm ..
      show IsLeast _ (min old.priority priority)
      rw [hmin]
      exact (hold old hget).insert priority
    | none =>
      rw [hget] at h
      cases h
      rw [hnone hget, insert_empty_eq]
      exact isLeast_singleton
  · have hown : {p | rule.Ranks none query p} = ∅ :=
      Set.eq_empty_iff_forall_notMem.2 fun p hp => hstands (Rule.Ranks.standsIn hp)
    rw [get?_media_add_of_not hstands] at h
    rw [hown, Set.empty_union]
    exact hold block h

/-! ## A list of rules -/

theorem get?_media_ofRules_isSome {rules : List Rule} :
    ((ofRules rules).media.get? query).isSome ↔ ∃ rule ∈ rules, rule.StandsIn none (some query) := by
  rw [← mem_mediaQueries_ofRules, Option.isSome_iff_exists, ← OrderedMap.mem_keys_iff]
  rfl

/-- **A block keeps the least priority of its rules.** Induction on the rules from their end. -/
theorem isLeast_priority_ofRules {rules : List Rule} {block : MediaBlock}
    (h : (ofRules rules).media.get? query = some block) :
    IsLeast {priority | ∃ rule ∈ rules, rule.Ranks none query priority} block.priority := by
  induction rules using List.reverseRecOn generalizing block with
  | nil => cases h
  | append_singleton rules rule ih =>
    rw [ofRules_append, List.foldl_cons, List.foldl_nil] at h
    have hranks : {p | ∃ r ∈ rules ++ [rule], r.Ranks none query p} =
        {p | rule.Ranks none query p} ∪ {p | ∃ r ∈ rules, r.Ranks none query p} := by
      ext p
      simp [or_comm, or_and_right, exists_or]
    rw [hranks]
    refine isLeast_priority_add (fun old hold => ih hold) (fun hnone => ?_) h
    rw [Set.eq_empty_iff_forall_notMem]
    rintro p ⟨r, hr, hp⟩
    have hsome := get?_media_ofRules_isSome.2 ⟨r, hr, hp.standsIn⟩
    rw [hnone] at hsome
    cases hsome

/-! ## Sorted blocks -/

theorem mem_sortedMedia {entry : String × MediaBlock} :
    entry ∈ sheet.sortedMedia ↔ sheet.media.get? entry.1 = some entry.2 := by
  rw [sortedMedia, List.mem_mergeSort, OrderedMap.get?_eq_some_iff]

theorem sortedMedia_of_pair {first second : String × MediaBlock} (h : sheet.media.entries = [first, second]) :
    sheet.sortedMedia = if first.2.priority ≤ second.2.priority then [first, second] else [second, first] := by
  rw [sortedMedia, h]
  simp [List.mergeSort, List.merge]

/-- Sorting moves the blocks and loses none. -/
theorem map_fst_sortedMedia_perm (sheet : Sheet) : (sheet.sortedMedia.map Prod.fst).Perm sheet.media.keys :=
  (List.mergeSort_perm ..).map _

/-- **The blocks ascend**, and the order in which they came decides between those of the same priority. -/
theorem pairwise_sortedMedia {before : String → String → Prop} (h : sheet.media.keys.Pairwise before) :
    sheet.sortedMedia.Pairwise fun a b =>
      a.2.priority ≤ b.2.priority ∧ (b.2.priority ≤ a.2.priority → before a.1 b.1) := by
  have hentries : sheet.media.entries.Pairwise fun a b => before a.1 b.1 := List.pairwise_map.1 h
  rw [sortedMedia]
  refine (pairwise_mergeSort_of_pairwise (fun a b c hab hbc => ?_) (fun a b => ?_) hentries).imp ?_
  · rw [decide_eq_true_eq] at hab hbc ⊢
    exact Nat.le_trans hab hbc
  · rw [Bool.or_eq_true, decide_eq_true_eq, decide_eq_true_eq]
    exact Nat.le_total ..
  · intro a b hab
    rwa [decide_eq_true_eq, decide_eq_true_eq] at hab

end Sheet

end AtomicCss
