import AtomicCss.Ordered.Set
import Mathlib.Data.List.Basic
import Mathlib.Data.List.Induction

/-!
# First-seen order

The distinct elements of a list stand in the order of their first occurrences. Where they come from another
list, as the queries of a page come from its tokens, this is the order in which that list first leads to them.
A stable sort keeps it among elements that it takes for equal.

* **`distinct_concat`** — one more element, which is appended unless it is known; `distinct_prefix_append` is
  what that makes of many.
* **`distinct_filterMap_distinct`** — leaving out repetitions early does not matter.
* **`pairwise_distinct_filterMap`** — the order of the distinct elements is that of their first sources.
* **`pairwise_mergeSort_of_pairwise`** — what holds of all pairs of a list in order holds, in the sorted list,
  of the pairs that count as equal.
* **`pair_sublist_or`** — of two elements of a list one stands in front of the other.
-/

namespace AtomicCss

variable {α β : Type}

/-! ## Distinct elements -/

section Distinct

variable [DecidableEq α] [DecidableEq β]

theorem distinct_concat (l : List α) (a : α) :
    distinct (l ++ [a]) = if a ∈ l then distinct l else distinct l ++ [a] := by
  have hinsert : distinct (l ++ [a]) = ((OrderedSet.ofList l).insert a).toList := by
    rw [distinct, OrderedSet.ofList, List.foldl_append]
    rfl
  have hmem : a ∈ (OrderedSet.ofList l).toList ↔ a ∈ l := mem_distinct
  rw [hinsert, OrderedSet.toList_insert]
  simp only [hmem]
  rfl

/-- What comes later goes behind. -/
theorem distinct_prefix_append (l l' : List α) : distinct l <+: distinct (l ++ l') := by
  induction l' using List.reverseRecOn with
  | nil => exact (List.append_nil l).symm ▸ List.prefix_refl _
  | append_singleton l' a ih =>
    rw [← List.append_assoc, distinct_concat]
    split
    · exact ih
    · exact ih.trans (List.prefix_append _ _)

/-- **Repetitions may be left out early.** Induction on the list from its end. -/
theorem distinct_filterMap_distinct (f : α → Option β) (l : List α) :
    distinct ((distinct l).filterMap f) = distinct (l.filterMap f) := by
  induction l using List.reverseRecOn with
  | nil => rfl
  | append_singleton l a ih =>
    have hmem (b : β) : b ∈ (distinct l).filterMap f ↔ b ∈ l.filterMap f := by
      simp only [List.mem_filterMap, mem_distinct]
    rw [distinct_concat, List.filterMap_append]
    cases hf : f a with
    | none =>
      rw [List.filterMap_cons_none hf, List.filterMap_nil, List.append_nil]
      split
      · exact ih
      · rw [List.filterMap_append, List.filterMap_cons_none hf, List.filterMap_nil, List.append_nil, ih]
    | some b =>
      rw [List.filterMap_cons_some hf, List.filterMap_nil, distinct_concat]
      split
      · rename_i ha
        -- what the known element led to is known as well
        have hb : b ∈ l.filterMap f := List.mem_filterMap.2 ⟨a, ha, hf⟩
        rw [if_pos hb, ih]
      · rw [List.filterMap_append, List.filterMap_cons_some hf, List.filterMap_nil, distinct_concat, ih]
        simp only [hmem]

end Distinct

/-! ## First sources -/

section Sources

variable [DecidableEq β]

/-- The place of the first element of a list that leads to `b`. -/
def firstPlace (f : α → Option β) (l : List α) (b : β) : Nat :=
  l.findIdx fun a => decide (f a = some b)

theorem firstPlace_lt_iff {f : α → Option β} {l : List α} {b : β} :
    firstPlace f l b < l.length ↔ b ∈ l.filterMap f := by
  rw [firstPlace, List.findIdx_lt_length, List.mem_filterMap]
  simp only [decide_eq_true_eq]

/-- What follows behind the first place does not matter. -/
theorem firstPlace_append_of_mem {f : α → Option β} {l : List α} {b : β} (l' : List α)
    (h : b ∈ l.filterMap f) : firstPlace f (l ++ l') b = firstPlace f l b := by
  have hlt := firstPlace_lt_iff.2 h
  rw [firstPlace] at hlt
  rw [firstPlace, List.findIdx_append, if_pos hlt]
  rfl

theorem length_le_firstPlace_append {f : α → Option β} {l : List α} {b : β} (l' : List α)
    (h : b ∉ l.filterMap f) : l.length ≤ firstPlace f (l ++ l') b := by
  have hnot : ¬ l.findIdx (fun a => decide (f a = some b)) < l.length :=
    fun hlt => h (firstPlace_lt_iff.1 hlt)
  rw [firstPlace, List.findIdx_append, if_neg hnot]
  omega

/-- **The distinct elements of a list stand in the order of their first sources.** Induction on the sources
from their end: a new element has the last of them as its first. -/
theorem pairwise_distinct_filterMap (f : α → Option β) (l : List α) :
    (distinct (l.filterMap f)).Pairwise fun b b' => firstPlace f l b < firstPlace f l b' := by
  induction l using List.reverseRecOn with
  | nil => exact .nil
  | append_singleton l a ih =>
    have hkeep : (distinct (l.filterMap f)).Pairwise fun b b' =>
        firstPlace f (l ++ [a]) b < firstPlace f (l ++ [a]) b' := by
      refine ih.imp_of_mem fun hb hb' hlt => ?_
      rwa [firstPlace_append_of_mem [a] (mem_distinct.1 hb), firstPlace_append_of_mem [a] (mem_distinct.1 hb')]
    rw [List.filterMap_append]
    cases hf : f a with
    | none => rwa [List.filterMap_cons_none hf, List.filterMap_nil, List.append_nil]
    | some b =>
      rw [List.filterMap_cons_some hf, List.filterMap_nil, distinct_concat]
      split
      · exact hkeep
      · rename_i hnew
        refine List.pairwise_append.2 ⟨hkeep, List.pairwise_singleton _ _, fun c hc d hd => ?_⟩
        obtain rfl := List.mem_singleton.1 hd
        have hc := mem_distinct.1 hc
        rw [firstPlace_append_of_mem [a] hc]
        have hlt := firstPlace_lt_iff.2 hc
        have hle := length_le_firstPlace_append [a] hnew
        omega

end Sources

/-! ## Stable sorting -/

/-- **A stable sort keeps the order of elements that it takes for equal.** Induction on the list: the first
element goes behind the elements that are strictly below it, and in front of all others. -/
theorem pairwise_mergeSort_of_pairwise {le : α → α → Bool} (trans : ∀ a b c, le a b → le b c → le a c)
    (total : ∀ a b, le a b || le b a) {r : α → α → Prop} {l : List α} (h : l.Pairwise r) :
    (l.mergeSort le).Pairwise fun a b => le a b = true ∧ (le b a = true → r a b) := by
  induction l with
  | nil => simp
  | cons a l ih =>
    obtain ⟨hfirst, hrest⟩ := List.pairwise_cons.1 h
    obtain ⟨below, above, hsort, hsort', hbelow⟩ := List.mergeSort_cons trans total a l
    have hsorted := List.pairwise_mergeSort trans total (a :: l)
    have hpairs := ih hrest
    rw [hsort, List.pairwise_append, List.pairwise_cons] at hsorted
    rw [hsort', List.pairwise_append] at hpairs
    obtain ⟨-, ⟨habove, -⟩, hle⟩ := hsorted
    obtain ⟨hpbelow, hpabove, hpboth⟩ := hpairs
    rw [hsort, List.pairwise_append, List.pairwise_cons]
    refine ⟨hpbelow, ⟨fun b hb => ⟨habove b hb, fun _ => hfirst b ?_⟩, hpabove⟩, fun c hc b hb => ?_⟩
    · have hmem : b ∈ l.mergeSort le := hsort' ▸ List.mem_append_right below hb
      exact List.mem_mergeSort.1 hmem
    · rcases List.mem_cons.1 hb with rfl | hb
      · have hstrict := hbelow c hc
        exact ⟨hle c hc b (List.mem_cons_self ..), fun heq => by simp [heq] at hstrict⟩
      · exact hpboth c hc b hb

/-! ## Relative order -/

/-- Of two elements of a list one stands in front of the other. -/
theorem pair_sublist_or {l : List α} {a b : α} (ha : a ∈ l) (hb : b ∈ l) (hne : a ≠ b) :
    [a, b].Sublist l ∨ [b, a].Sublist l := by
  induction l with
  | nil => cases ha
  | cons c l ih =>
    rcases List.mem_cons.1 ha with rfl | hal
    · have hbl := (List.mem_cons.1 hb).resolve_left (Ne.symm hne)
      exact .inl ((List.singleton_sublist.2 hbl).cons_cons a)
    · rcases List.mem_cons.1 hb with rfl | hbl
      · exact .inr ((List.singleton_sublist.2 hal).cons_cons b)
      · exact (ih hal hbl).imp (·.cons c) (·.cons c)

end AtomicCss
