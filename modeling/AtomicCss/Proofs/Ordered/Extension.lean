import AtomicCss.Ordered.Map
import Mathlib.Data.List.Basic

/-!
# Maps laid over each other

Inserting all pairs of one map into another lays it over the other: where both have a value the upper one shows, and
the lower one keeps its order and comes first. A map is known by its keys and its look-ups, so that laws about what
lies above what are read off these two.

## The architecture

* **`foldl_slot`** — what the last step of a run that sets a slot leaves in it.
* **`get?_extend`** — of a list of pairs the last value of a key shows, and else the value that was there.
* **`keys_extend`** — the keys that were there come first, and the new ones follow in their order.
* **`ext_keys_get?`** — maps with the same keys and the same look-ups are the same.
* **`overlay_overlay_self`**, **`overlay_merge?`** — laying a map over another twice is laying it once, and laying two
  maps one after the other is laying their merge.
-/

namespace AtomicCss

/-! ## Slots -/

theorem getLast?_filterMap_cons {α β : Type} (f : α → Option β) (a : α) (l : List α) :
    ((a :: l).filterMap f).getLast? = (l.filterMap f).getLast?.or (f a) := by
  cases h : f a with
  | none => rw [List.filterMap_cons_none h, Option.or_none]
  | some b =>
    rw [List.filterMap_cons_some h, List.getLast?_cons]
    cases (l.filterMap f).getLast? <;> rfl

/-- **A slot after a run** holds what the last step set that sets it at all, or what was there before. Induction on
the steps. -/
theorem foldl_slot {σ ε α : Type} (slot : σ → Option α) {step : σ → ε → σ} {set : ε → Option α}
    (hstep : ∀ s e, slot (step s e) = (set e).or (slot s)) (es : List ε) (s : σ) :
    slot (es.foldl step s) = (es.filterMap set).getLast?.or (slot s) := by
  induction es generalizing s with
  | nil => rfl
  | cons e es ih => rw [List.foldl_cons, ih, hstep, getLast?_filterMap_cons, Option.or_assoc]

namespace OrderedMap

variable {κ ν : Type} [DecidableEq κ]

/-! ## Look-ups -/

/-- The last value that a list of pairs gives a key. -/
def lastValue? (pairs : List (κ × ν)) (key : κ) : Option ν :=
  (pairs.filterMap fun p => if p.1 = key then some p.2 else none).getLast?

theorem lastValue?_cons (p : κ × ν) (pairs : List (κ × ν)) (key : κ) :
    lastValue? (p :: pairs) key = (lastValue? pairs key).or (if p.1 = key then some p.2 else none) :=
  getLast?_filterMap_cons ..

theorem get?_insert (m : OrderedMap κ ν) (key other : κ) (value : ν) :
    (m.insert key value).get? other = if other = key then some value else m.get? other :=
  get?_alter m key other fun _ => value

/-- **Of a list of pairs the last value of a key shows**, and else the value that was there. -/
theorem get?_extend (m : OrderedMap κ ν) (pairs : List (κ × ν)) (key : κ) :
    (m.extend pairs).get? key = (lastValue? pairs key).or (m.get? key) := by
  have hstep (m : OrderedMap κ ν) (p : κ × ν) :
      (m.insert p.1 p.2).get? key = (if p.1 = key then some p.2 else none).or (m.get? key) := by
    rw [get?_insert]
    by_cases h : p.1 = key
    · rw [if_pos h.symm, if_pos h, Option.some_or]
    · rw [if_neg (Ne.symm h), if_neg h, Option.none_or]
  exact foldl_slot (·.get? key) hstep pairs m

theorem get?_ofList (pairs : List (κ × ν)) (key : κ) : (ofList pairs).get? key = lastValue? pairs key :=
  (get?_extend empty pairs key).trans Option.or_none

/-- No key of a map occurs twice, so its last value is its value. -/
theorem lastValue?_entries (m : OrderedMap κ ν) (key : κ) : lastValue? m.entries key = m.get? key := by
  symm
  cases h : lastValue? m.entries key with
  | none =>
    rw [lastValue?, List.getLast?_eq_none_iff, List.filterMap_eq_nil_iff] at h
    refine Option.eq_none_iff_forall_ne_some.2 fun value hvalue => ?_
    simpa using h _ (get?_eq_some_iff.1 hvalue)
  | some value =>
    obtain ⟨p, hmem, hp⟩ := List.mem_filterMap.1 (List.mem_of_getLast? h)
    obtain ⟨hkey, hvalue⟩ := Option.ite_none_right_eq_some.1 hp
    cases hkey
    cases hvalue
    exact get?_eq_some_iff.2 hmem

/-! ## Keys -/

theorem keys_insert (m : OrderedMap κ ν) (key : κ) (value : ν) :
    (m.insert key value).keys = if key ∈ m.keys then m.keys else m.keys ++ [key] :=
  keys_alter m key fun _ => value

/-- **The keys that were there come first, and the new ones follow in their order.** Induction on the pairs. -/
theorem keys_extend (m : OrderedMap κ ν) {pairs : List (κ × ν)} (h : (pairs.map Prod.fst).Nodup) :
    (m.extend pairs).keys = m.keys ++ (pairs.map Prod.fst).filter (· ∉ m.keys) := by
  induction pairs generalizing m with
  | nil => exact (List.append_nil _).symm
  | cons p pairs ih =>
    rw [List.map_cons, List.nodup_cons] at h
    obtain ⟨hnew, hrest⟩ := h
    have hstep : (m.extend (p :: pairs)).keys = ((m.insert p.1 p.2).extend pairs).keys := rfl
    rw [hstep, ih _ hrest, keys_insert, List.map_cons, List.filter_cons]
    by_cases hp : p.1 ∈ m.keys
    · rw [if_pos hp, if_neg (by simpa using hp)]
    · -- no later pair has the key that is new here
      have hsame : (pairs.map Prod.fst).filter (· ∉ m.keys ++ [p.1]) = (pairs.map Prod.fst).filter (· ∉ m.keys) := by
        refine List.filter_congr fun key hkey => decide_eq_decide.2 ?_
        have hne : key ≠ p.1 := fun heq => hnew (heq ▸ hkey)
        simp [hne]
      rw [if_neg hp, if_pos (by simpa using hp), hsame, List.append_assoc, List.singleton_append]

/-! ## Maps by keys and look-ups -/

theorem entries_eq_filterMap (m : OrderedMap κ ν) :
    m.entries = m.keys.filterMap fun key => (m.get? key).map (key, ·) := by
  rw [keys, List.filterMap_map]
  have hself : ∀ e ∈ m.entries, ((fun key => (m.get? key).map (key, ·)) ∘ Prod.fst) e = some e := by
    intro e he
    rw [Function.comp_apply, get?_eq_some_iff.2 (show (e.1, e.2) ∈ m.entries from he)]
    rfl
  rw [List.filterMap_congr hself, List.filterMap_some]

/-- **Maps with the same keys and the same look-ups are the same.** -/
theorem ext_keys_get? {m m' : OrderedMap κ ν} (hkeys : m.keys = m'.keys) (hget : ∀ key, m.get? key = m'.get? key) :
    m = m' := by
  have hentries : m.entries = m'.entries := by
    rw [entries_eq_filterMap, entries_eq_filterMap, hkeys]
    simp only [hget]
  cases m
  cases m'
  cases hentries
  rfl

/-! ## Overlays -/

/-- The value that an overlay gives a key. -/
def valueIn? (upper : Option (OrderedMap κ ν)) (key : κ) : Option ν :=
  upper.bind (·.get? key)

/-- The keys to which an overlay gives a value, in their order. -/
def keysIn (upper : Option (OrderedMap κ ν)) : List κ :=
  upper.elim [] keys

theorem get?_overlay (m : OrderedMap κ ν) (upper : Option (OrderedMap κ ν)) (key : κ) :
    (m.overlay upper).get? key = (valueIn? upper key).or (m.get? key) := by
  cases upper with
  | none => rfl
  | some o => rw [overlay, get?_extend, lastValue?_entries, valueIn?, Option.bind_some]

theorem keys_overlay (m : OrderedMap κ ν) (upper : Option (OrderedMap κ ν)) :
    (m.overlay upper).keys = m.keys ++ (keysIn upper).filter (· ∉ m.keys) := by
  cases upper with
  | none => exact (List.append_nil _).symm
  | some o => exact m.keys_extend o.nodup

/-- **A map laid over another twice** is laid over it once: the second time no key is new. -/
theorem overlay_overlay_self (m : OrderedMap κ ν) (upper : Option (OrderedMap κ ν)) :
    (m.overlay upper).overlay upper = m.overlay upper := by
  refine ext_keys_get? ?_ fun key => ?_
  · -- all keys of the overlay are there by now
    have hnone : (keysIn upper).filter (· ∉ (m.overlay upper).keys) = [] := by
      refine List.filter_eq_nil_iff.2 fun key hkey => ?_
      rw [keys_overlay]
      by_cases h : key ∈ m.keys <;> simp [h, hkey]
    rw [keys_overlay (m.overlay upper), hnone, List.append_nil]
  · rw [get?_overlay, get?_overlay, ← Option.or_assoc, Option.or_self]

/-- Two overlays as one: the second one lies over the first one, and one that is not given takes no part. -/
def merge? : Option (OrderedMap κ ν) → Option (OrderedMap κ ν) → Option (OrderedMap κ ν)
  | none, second => second
  | some first, second => some (first.overlay second)

theorem valueIn?_merge? (first second : Option (OrderedMap κ ν)) (key : κ) :
    valueIn? (merge? first second) key = (valueIn? second key).or (valueIn? first key) := by
  cases first with
  | none => exact Option.or_none.symm
  | some first => exact first.get?_overlay second key

theorem keysIn_merge? (first second : Option (OrderedMap κ ν)) :
    keysIn (merge? first second) = keysIn first ++ (keysIn second).filter (· ∉ keysIn first) := by
  cases first with
  | none => simp [merge?, keysIn]
  | some first => exact first.keys_overlay second

/-- **Two maps laid over a third one after the other** are their merge laid over it. -/
theorem overlay_merge? (m : OrderedMap κ ν) (first second : Option (OrderedMap κ ν)) :
    (m.overlay first).overlay second = m.overlay (merge? first second) := by
  refine ext_keys_get? ?_ fun key => ?_
  · rw [keys_overlay, keys_overlay, keys_overlay, keysIn_merge?, List.filter_append, List.append_assoc,
      List.filter_filter]
    congr 2
    -- a key of the second overlay is new if neither the map nor the first overlay has it, however that is asked
    refine List.filter_congr fun key _ => ?_
    by_cases hkey : key ∈ m.keys <;> simp [hkey]
  · rw [get?_overlay, get?_overlay, get?_overlay, valueIn?_merge?, Option.or_assoc]

end OrderedMap

end AtomicCss
