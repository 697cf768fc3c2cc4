/-!
# Maps that remember insertion order

Theme categories, rule buckets and component libraries are all written out in the order in which their
keys first came, and a later value for a known key changes the value but not the place. `OrderedMap` is
that container: a list of pairs in which no key occurs twice, the latter carried by the type.

* `alter` — the one writing operation: compute a key's new value from its old one;
* `insert`, `ofList`, `extend`, `overlay` — last value wins, first place stays;
* `keys_alter`, `keys_ofList_of_nodup` — what writing does to the keys;
* `get?_alter` — what writing does to look-ups;
* `get?_eq_some_iff`, `mem_keys_iff` — look-ups find the pairs of the map and nothing else.
-/

namespace AtomicCss

variable {κ ν : Type}

/-- Pairs of a key and a value in first-insertion order, no key twice. -/
structure OrderedMap (κ ν : Type) where
  entries : List (κ × ν)
  nodup : (entries.map Prod.fst).Nodup
  deriving DecidableEq

namespace OrderedMap

def keys (m : OrderedMap κ ν) : List κ :=
  m.entries.map Prod.fst

def size (m : OrderedMap κ ν) : Nat :=
  m.entries.length

def isEmpty (m : OrderedMap κ ν) : Bool :=
  m.entries.isEmpty

/-- The keys of a map occur once each. -/
theorem nodup_keys (m : OrderedMap κ ν) : m.keys.Nodup :=
  m.nodup

variable [DecidableEq κ]

/-- The list of pairs with the value of `key` computed from its old value; a new key goes last. -/
def alterEntries (key : κ) (f : Option ν → ν) : List (κ × ν) → List (κ × ν)
  | [] => [(key, f none)]
  | (k, v) :: rest =>
    if k = key then (k, f (some v)) :: rest else (k, v) :: alterEntries key f rest

/-- Writing keeps the keys and their order, or appends the new key. -/
theorem keys_alterEntries (key : κ) (f : Option ν → ν) (entries : List (κ × ν)) :
    (alterEntries key f entries).map Prod.fst =
      if key ∈ entries.map Prod.fst then entries.map Prod.fst
      else entries.map Prod.fst ++ [key] := by
  induction entries with
  | nil => simp [alterEntries]
  | cons e rest ih =>
    obtain ⟨k, v⟩ := e
    simp only [alterEntries]
    by_cases hk : k = key
    · simp [hk]
    · have hk' : key ≠ k := fun h => hk h.symm
      simp only [if_neg hk, List.map_cons, ih, List.mem_cons, hk', false_or]
      split <;> simp

def empty : OrderedMap κ ν :=
  ⟨[], List.nodup_nil⟩

instance : EmptyCollection (OrderedMap κ ν) := ⟨empty⟩

instance : Inhabited (OrderedMap κ ν) := ⟨empty⟩

/-- The map in which the value of `key` is computed from its old value; a new key goes last. -/
def alter (m : OrderedMap κ ν) (key : κ) (f : Option ν → ν) : OrderedMap κ ν where
  entries := alterEntries key f m.entries
  nodup := by
    rw [keys_alterEntries]
    split
    · exact m.nodup
    · rename_i h
      refine List.nodup_append.2 ⟨m.nodup, by simp, ?_⟩
      rintro a ha b hb rfl
      rw [List.mem_singleton] at hb
      exact h (hb ▸ ha)

/-- The map in which `key` has the value `value`; a known key keeps its place. -/
def insert (m : OrderedMap κ ν) (key : κ) (value : ν) : OrderedMap κ ν :=
  m.alter key fun _ => value

/-- All pairs of a list inserted one after the other. -/
def extend (m : OrderedMap κ ν) (pairs : List (κ × ν)) : OrderedMap κ ν :=
  pairs.foldl (fun m p => m.insert p.1 p.2) m

/-- The map with the pairs of another one inserted, if there is one. -/
def overlay (m : OrderedMap κ ν) : Option (OrderedMap κ ν) → OrderedMap κ ν
  | some upper => m.extend upper.entries
  | none => m

/-- The map of a list of pairs: a repeated key has its first place and its last value. -/
def ofList (pairs : List (κ × ν)) : OrderedMap κ ν :=
  empty.extend pairs

def get? (m : OrderedMap κ ν) (key : κ) : Option ν :=
  (m.entries.find? fun e => e.1 = key).map Prod.snd

/-- Whether a key has a value. -/
def contains (m : OrderedMap κ ν) (key : κ) : Bool :=
  m.entries.any fun e => e.1 = key

/-! ## What writing shows -/

/-- Writing keeps the keys and their order, or appends the new key. -/
theorem keys_alter (m : OrderedMap κ ν) (key : κ) (f : Option ν → ν) :
    (m.alter key f).keys = if key ∈ m.keys then m.keys else m.keys ++ [key] :=
  keys_alterEntries key f m.entries

/-- The written key has its new value and every other key the value that it had. -/
theorem get?_alter (m : OrderedMap κ ν) (key other : κ) (f : Option ν → ν) :
    (m.alter key f).get? other = if other = key then some (f (m.get? key)) else m.get? other := by
  obtain ⟨entries, nodup⟩ := m
  simp only [get?, alter]
  clear nodup
  induction entries with
  | nil =>
    by_cases h : other = key
    · simp [alterEntries, h]
    · have h' : ¬ key = other := fun e => h e.symm
      simp [alterEntries, h, h']
  | cons e rest ih =>
    obtain ⟨k, v⟩ := e
    simp only [alterEntries]
    by_cases hk : k = key
    · by_cases h : other = key
      · simp [hk, h]
      · have h' : ¬ key = other := fun e => h e.symm
        simp [hk, h, h']
    · by_cases ho : k = other
      · have h : ¬ other = key := fun e => hk (ho.trans e)
        simp [ho, h]
      · by_cases h : other = key
        · subst h
          simpa [hk] using ih
        · simpa [hk, ho, h] using ih

/-- Writing adds the one key and no other. -/
theorem mem_keys_alter {m : OrderedMap κ ν} {key other : κ} {f : Option ν → ν} :
    other ∈ (m.alter key f).keys ↔ other = key ∨ other ∈ m.keys := by
  rw [keys_alter]
  split
  · rename_i h
    exact ⟨Or.inr, fun ho => ho.elim (fun e => e ▸ h) id⟩
  · simp [or_comm]

/-- New keys that differ from each other are appended in their order. -/
theorem keys_extend_of_nodup {m : OrderedMap κ ν} {pairs : List (κ × ν)}
    (h : (m.keys ++ pairs.map Prod.fst).Nodup) : (m.extend pairs).keys = m.keys ++ pairs.map Prod.fst := by
  induction pairs generalizing m with
  | nil => simp [extend]
  | cons p pairs ih =>
    obtain ⟨key, value⟩ := p
    have hnew : key ∉ m.keys := fun hmem => (List.nodup_append.1 h).2.2 key hmem key List.mem_cons_self rfl
    have hkeys : (m.insert key value).keys = m.keys ++ [key] := by
      rw [insert, keys_alter, if_neg hnew]
    have hrest : (m.insert key value).keys ++ pairs.map Prod.fst = m.keys ++ ((key, value) :: pairs).map Prod.fst := by
      rw [hkeys, List.append_assoc]
      rfl
    rw [← hrest] at h ⊢
    exact ih h

/-- The map of a list without a repeated key has the keys of the list, in their order. -/
theorem keys_ofList_of_nodup {pairs : List (κ × ν)} (h : (pairs.map Prod.fst).Nodup) :
    (ofList pairs).keys = pairs.map Prod.fst :=
  keys_extend_of_nodup (m := empty) h

/-! ## Look-ups and pairs -/

/-- The empty map has no values. -/
@[simp] theorem get?_empty (key : κ) : (∅ : OrderedMap κ ν).get? key = none :=
  rfl

/-- A look-up finds the pairs of the map. No key occurs twice, so the first pair with a key is the
only one. -/
theorem get?_eq_some_iff {m : OrderedMap κ ν} {key : κ} {value : ν} :
    m.get? key = some value ↔ (key, value) ∈ m.entries := by
  obtain ⟨entries, nodup⟩ := m
  simp only [get?]
  induction entries with
  | nil => simp
  | cons e rest ih =>
    obtain ⟨k, v⟩ := e
    rw [List.map_cons, List.nodup_cons] at nodup
    by_cases hk : k = key
    · subst hk
      have hrest : (k, value) ∉ rest := fun hmem => nodup.1 (List.mem_map.2 ⟨_, hmem, rfl⟩)
      simp [hrest, eq_comm]
    · have hk' : key ≠ k := fun h => hk h.symm
      simpa [hk, hk'] using ih nodup.2

/-- A pair of a map after writing is the written one, or it was there before. -/
theorem mem_entries_alter {m : OrderedMap κ ν} {key : κ} {f : Option ν → ν} {p : κ × ν}
    (h : p ∈ (m.alter key f).entries) : p = (key, f (m.get? key)) ∨ p ∈ m.entries := by
  obtain ⟨k, v⟩ := p
  rw [← get?_eq_some_iff, get?_alter] at h
  split at h
  · rename_i hk
    exact .inl (by rw [hk, Option.some.inj h])
  · exact .inr (get?_eq_some_iff.1 h)

/-- The keys are what look-ups find. -/
theorem mem_keys_iff {m : OrderedMap κ ν} {key : κ} :
    key ∈ m.keys ↔ ∃ value, m.get? key = some value := by
  simp [get?_eq_some_iff, keys]

end OrderedMap

end AtomicCss
