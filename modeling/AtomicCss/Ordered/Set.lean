/-!
# Sets that remember insertion order

Distinct tokens, the selectors of one rule body and the keyframes of a sheet are kept in the order in
which they first came. `OrderedSet` is a list without repetitions, the latter carried by the type.

* `insert` — appends a new element and ignores a known one;
* `ofList` — the distinct elements of a list in first-seen order;
* `toList_insert`, `mem_insert` — what inserting shows;
* `mem_distinct`, `nodup_distinct` — the distinct elements of a list are its elements, each once.
-/

namespace AtomicCss

variable {α : Type} [DecidableEq α]

/-- Elements in first-insertion order, none twice. -/
structure OrderedSet (α : Type) where
  toList : List α
  nodup : toList.Nodup
  deriving DecidableEq

namespace OrderedSet

def empty : OrderedSet α :=
  ⟨[], List.nodup_nil⟩

instance : EmptyCollection (OrderedSet α) := ⟨empty⟩

instance : Inhabited (OrderedSet α) := ⟨empty⟩

/-- The set with one more element, which goes last unless it is known. -/
def insert (s : OrderedSet α) (a : α) : OrderedSet α :=
  if h : a ∈ s.toList then s
  else
    { toList := s.toList ++ [a]
      nodup := by
        refine List.nodup_append.2 ⟨s.nodup, by simp, ?_⟩
        rintro x hx y hy rfl
        rw [List.mem_singleton] at hy
        exact h (hy ▸ hx) }

/-- The distinct elements of a list in first-seen order. -/
def ofList (l : List α) : OrderedSet α :=
  l.foldl insert empty

/-- Whether an element is in the set. -/
def contains (s : OrderedSet α) (a : α) : Bool :=
  decide (a ∈ s.toList)

def isEmpty (s : OrderedSet α) : Bool :=
  s.toList.isEmpty

/-- Inserting appends a new element and ignores a known one. -/
theorem toList_insert (s : OrderedSet α) (a : α) :
    (s.insert a).toList = if a ∈ s.toList then s.toList else s.toList ++ [a] := by
  unfold insert
  split <;> rfl

/-- Inserting adds exactly the one element. -/
theorem mem_insert {s : OrderedSet α} {a b : α} :
    b ∈ (s.insert a).toList ↔ b = a ∨ b ∈ s.toList := by
  rw [toList_insert]
  split
  · rename_i h
    exact ⟨Or.inr, fun hb => hb.elim (fun e => e ▸ h) id⟩
  · simp [or_comm]

/-- Inserting a list adds exactly its elements. Induction on the list. -/
theorem mem_foldl_insert {l : List α} {s : OrderedSet α} {a : α} :
    a ∈ (l.foldl insert s).toList ↔ a ∈ s.toList ∨ a ∈ l := by
  induction l generalizing s with
  | nil => simp
  | cons b l ih =>
    rw [List.foldl_cons, ih, mem_insert, List.mem_cons, or_assoc, or_left_comm]

end OrderedSet

/-- The distinct elements of a list in first-seen order. -/
def distinct (l : List α) : List α :=
  (OrderedSet.ofList l).toList

/-- The distinct elements of a list are its elements. -/
theorem mem_distinct {l : List α} {a : α} : a ∈ distinct l ↔ a ∈ l := by
  rw [distinct, OrderedSet.ofList, OrderedSet.mem_foldl_insert]
  simp [OrderedSet.empty]

/-- The distinct elements of a list occur once each. -/
theorem nodup_distinct (l : List α) : (distinct l).Nodup :=
  (OrderedSet.ofList l).nodup

end AtomicCss
