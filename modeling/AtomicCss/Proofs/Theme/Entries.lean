import AtomicCss.Proofs.Ordered.Extension
import AtomicCss.Theme.Reading
import Mathlib.Data.List.Basic
import Mathlib.Data.List.Induction

/-!
# The entries of a category

A category is collected twice: under typed keys, and then under the keys as they are written back. Both times a key
keeps its first place and takes its last value, but the two do not add up to the last value of a written key: with
`'60'`, `60` and again `'60'` the second collecting sees the text in front of the number, and the number wins.

## The architecture

* **`Value.same_comm`**, **`Value.same_trans`** — for scalars, being one key is an equivalence.
* **`collectTyped_eq`** — what the first collecting leaves: the distinct typed keys, each with its last value.
* **`entries_follow_typed_keys`** — the value of a written key: of the typed keys that are written so, the one that
  comes up last counts. It is the value of the last such entry if being written alike and being one key are the same
  there, or if no typed key is repeated. `number_wins_over_later_text` has neither.
-/

namespace AtomicCss

open Yaml

/-! ## Scalars as keys -/

namespace Yaml

theorem Number.same_self (n : Number) : n.same n = true := by
  cases n <;> simp [Number.same]

theorem Number.same_comm (m n : Number) : m.same n = n.same m := by
  cases m <;> cases n <;> simp [Number.same, Bool.and_comm, Bool.beq_comm]

/-- Zeros are one number and every other number is one with itself only. -/
theorem Number.same_iff {m n : Number} :
    m.same n = true ↔ m = n ∨ ∃ s t x y, m = .float s x ∧ n = .float t y ∧ x.mantissa = 0 ∧ y.mantissa = 0 := by
  cases m <;> cases n <;> simp [Number.same, or_comm]

theorem Number.same_trans {l m n : Number} (hl : l.same m = true) (hn : m.same n = true) : l.same n = true := by
  rw [Number.same_iff] at *
  rcases hl with rfl | ⟨s, t, x, y, rfl, rfl, hx, hy⟩
  · exact hn
  · rcases hn with rfl | ⟨s', t', x', y', hm, rfl, hx', hy'⟩
    · exact .inr ⟨s, t, x, y, rfl, rfl, hx, hy⟩
    · exact .inr ⟨s, t', x, y', rfl, rfl, hx, hy'⟩

namespace Value

/-- Whether a value is a string, a number or a truth value. -/
def isScalar : Value → Bool
  | string _ | number _ | bool _ => true
  | _ => false

theorem exists_text?_of_isScalar {v : Value} (h : v.isScalar = true) : ∃ s, v.text? = some s := by
  cases v with
  | string s => exact ⟨s, rfl⟩
  | number n => exact ⟨n.text, rfl⟩
  | bool b => cases b <;> exact ⟨_, rfl⟩
  | null | sequence | mapping | tagged => cases h

variable {u v w : Value}

theorem same_self (h : v.isScalar = true) : v.same v = true := by
  cases v with
  | string s => simp [same]
  | number n => simpa [same] using n.same_self
  | bool b => simp [same]
  | null | sequence | mapping | tagged => cases h

theorem same_comm (hv : v.isScalar = true) (hw : w.isScalar = true) : v.same w = w.same v := by
  cases v <;> cases hv <;> cases w <;> cases hw <;> simp [same, Number.same_comm, Bool.beq_comm]

theorem same_trans (hv : v.isScalar = true) (huv : u.same v = true) (hvw : v.same w = true) : u.same w = true := by
  cases v with
  | string s => cases u <;> cases w <;> simp_all [same]
  | bool b => cases u <;> cases w <;> simp_all [same]
  | number n =>
    cases u <;> cases w <;> simp only [same, Bool.false_eq_true] at *
    exact Number.same_trans huv hvw
  | null | sequence | mapping | tagged => cases hv

end Value

end Yaml

namespace Theme

/-! ## Typed keys -/

/-- The typed keys of a category, a key only where no key in front of it is the same. -/
def typedKeys (pairs : List (Value × Value)) : List Value :=
  pairs.foldl (fun seen p => if seen.any (·.same p.1) then seen else seen ++ [p.1]) []

/-- The value of the last entry under a typed key. -/
def lastTyped? (pairs : List (Value × Value)) (key : Value) : Option Value :=
  (pairs.filter fun p => key.same p.1).getLast?.map Prod.snd

variable {pairs : List (Value × Value)} {p : Value × Value} {key : Value}

theorem typedKeys_concat (pairs : List (Value × Value)) (p : Value × Value) :
    typedKeys (pairs ++ [p]) =
      if (typedKeys pairs).any (·.same p.1) then typedKeys pairs else typedKeys pairs ++ [p.1] := by
  rw [typedKeys, List.foldl_append]
  rfl

theorem lastTyped?_concat (pairs : List (Value × Value)) (p : Value × Value) (key : Value) :
    lastTyped? (pairs ++ [p]) key = if key.same p.1 then some p.2 else lastTyped? pairs key := by
  rw [lastTyped?, lastTyped?, List.filter_append]
  cases h : key.same p.1 <;> simp [h]

theorem exists_mem_of_mem_typedKeys (h : key ∈ typedKeys pairs) : ∃ p ∈ pairs, p.1 = key := by
  induction pairs using List.reverseRecOn with
  | nil => cases h
  | append_singleton pairs p ih =>
    rw [typedKeys_concat] at h
    split at h
    · obtain ⟨q, hq, hkey⟩ := ih h
      exact ⟨q, List.mem_append_left _ hq, hkey⟩
    · rcases List.mem_append.1 h with h | h
      · obtain ⟨q, hq, hkey⟩ := ih h
        exact ⟨q, List.mem_append_left _ hq, hkey⟩
      · exact ⟨p, by simp, (List.mem_singleton.1 h).symm⟩

/-- Every entry has one of the typed keys. -/
theorem exists_same_of_mem (h : p ∈ pairs) (hscalar : p.1.isScalar = true) :
    ∃ key ∈ typedKeys pairs, key.same p.1 = true := by
  induction pairs using List.reverseRecOn with
  | nil => cases h
  | append_singleton pairs q ih =>
    rw [typedKeys_concat]
    rcases List.mem_append.1 h with h | h
    · obtain ⟨key, hkey, hsame⟩ := ih h
      refine ⟨key, ?_, hsame⟩
      split
      · exact hkey
      · exact List.mem_append_left _ hkey
    · obtain rfl := List.mem_singleton.1 h
      split
      · rename_i hseen
        exact List.any_eq_true.1 hseen
      · exact ⟨p.1, by simp, Value.same_self hscalar⟩

/-- No two of the typed keys are the same. -/
theorem pairwise_typedKeys (pairs : List (Value × Value)) :
    (typedKeys pairs).Pairwise fun key key' => key.same key' = false := by
  induction pairs using List.reverseRecOn with
  | nil => exact List.Pairwise.nil
  | append_singleton pairs p ih =>
    rw [typedKeys_concat]
    split
    · exact ih
    · rename_i hnew
      refine List.pairwise_append.2 ⟨ih, List.pairwise_singleton _ _, fun key hkey key' hkey' => ?_⟩
      obtain rfl := List.mem_singleton.1 hkey'
      simpa using mt (fun h => List.any_eq_true.2 ⟨key, hkey, h⟩) hnew

/-! ## Collecting -/

theorem collectTyped_concat (pairs : List (Value × Value)) (p : Value × Value) :
    collectTyped (pairs ++ [p]) = putTyped (collectTyped pairs) p.1 p.2 := by
  rw [collectTyped, List.foldl_append]
  rfl

theorem map_fst_putTyped (pairs : List (Value × Value)) (key value : Value) :
    (putTyped pairs key value).map Prod.fst =
      if (pairs.map Prod.fst).any (·.same key) then pairs.map Prod.fst else pairs.map Prod.fst ++ [key] := by
  induction pairs with
  | nil => rfl
  | cons p pairs ih =>
    rw [putTyped]
    cases h : p.1.same key
    · simp only [Bool.false_eq_true, if_false, List.map_cons, List.any_cons, h, Bool.false_or, ih]
      split <;> rfl
    · simp [h]

/-- The typed keys are the keys that the first collecting leaves. -/
theorem map_fst_collectTyped (pairs : List (Value × Value)) :
    (collectTyped pairs).map Prod.fst = typedKeys pairs := by
  induction pairs using List.reverseRecOn with
  | nil => rfl
  | append_singleton pairs p ih => rw [collectTyped_concat, map_fst_putTyped, typedKeys_concat, ih]

/-- Putting writes under the one key that is the same, and leaves all other entries alone. Induction on the entries. -/
theorem mem_putTyped {value : Value} (hkey : key.isScalar = true) (hscalar : ∀ q ∈ pairs, q.1.isScalar = true)
    (hpairwise : (pairs.map Prod.fst).Pairwise fun k k' => k.same k' = false) (h : p ∈ putTyped pairs key value) :
    (p.1.same key = true ∧ p.2 = value) ∨ (p.1.same key = false ∧ p ∈ pairs) := by
  induction pairs with
  | nil =>
    obtain rfl := List.mem_singleton.1 h
    exact .inl ⟨Value.same_self hkey, rfl⟩
  | cons q pairs ih =>
    obtain ⟨hq, hscalar⟩ := List.forall_mem_cons.1 hscalar
    rw [List.map_cons, List.pairwise_cons] at hpairwise
    rw [putTyped] at h
    split at h
    · rename_i hsame
      rcases List.mem_cons.1 h with rfl | hmem
      · exact .inl ⟨hsame, rfl⟩
      · refine .inr ⟨?_, List.mem_cons_of_mem _ hmem⟩
        -- a second entry that is the same would be the same as the first one
        rw [← Bool.not_eq_true]
        intro hp
        rw [Value.same_comm (hscalar p hmem) hkey] at hp
        exact absurd (Value.same_trans hkey hsame hp)
          (Bool.eq_false_iff.1 (hpairwise.1 p.1 (List.mem_map_of_mem hmem)))
    · rename_i hsame
      rcases List.mem_cons.1 h with rfl | hmem
      · exact .inr ⟨Bool.eq_false_iff.2 hsame, List.mem_cons_self⟩
      · exact (ih hscalar hpairwise.2 hmem).imp_right fun ⟨hp, hin⟩ => ⟨hp, List.mem_cons_of_mem _ hin⟩

theorem isScalar_of_mem_collectTyped (hscalar : ∀ q ∈ pairs, q.1.isScalar = true) (h : p ∈ collectTyped pairs) :
    p.1.isScalar = true := by
  have hkey : p.1 ∈ typedKeys pairs := map_fst_collectTyped pairs ▸ List.mem_map_of_mem h
  obtain ⟨q, hq, hsame⟩ := exists_mem_of_mem_typedKeys hkey
  exact hsame ▸ hscalar q hq

/-- **The first collecting leaves the last value of every typed key.** Induction on the entries from the last one. -/
theorem lastTyped?_of_mem_collectTyped (hscalar : ∀ q ∈ pairs, q.1.isScalar = true) (h : p ∈ collectTyped pairs) :
    lastTyped? pairs p.1 = some p.2 := by
  induction pairs using List.reverseRecOn with
  | nil => cases h
  | append_singleton pairs q ih =>
    have hpairs : ∀ q ∈ pairs, q.1.isScalar = true := fun q hq => hscalar q (List.mem_append_left _ hq)
    have hpairwise : ((collectTyped pairs).map Prod.fst).Pairwise fun k k' => k.same k' = false := by
      rw [map_fst_collectTyped]
      exact pairwise_typedKeys pairs
    rw [collectTyped_concat] at h
    rw [lastTyped?_concat]
    rcases mem_putTyped (hscalar q (by simp)) (fun _ => isScalar_of_mem_collectTyped hpairs) hpairwise h with
      ⟨hsame, hvalue⟩ | ⟨hother, hmem⟩
    · rw [if_pos hsame, hvalue]
    · rw [if_neg (Bool.eq_false_iff.1 hother), ih hpairs hmem]

theorem putTyped_of_new {value : Value} (h : ∀ q ∈ pairs, q.1.same key = false) :
    putTyped pairs key value = pairs ++ [(key, value)] := by
  induction pairs with
  | nil => rfl
  | cons q pairs ih =>
    obtain ⟨hq, hpairs⟩ := List.forall_mem_cons.1 h
    rw [putTyped, if_neg (Bool.eq_false_iff.1 hq), ih hpairs]
    rfl

/-- Without a repeated typed key there is nothing to collect. -/
theorem collectTyped_of_pairwise (h : pairs.Pairwise fun p q => p.1.same q.1 = false) : collectTyped pairs = pairs := by
  induction pairs using List.reverseRecOn with
  | nil => rfl
  | append_singleton pairs p ih =>
    obtain ⟨hpairs, -, hlast⟩ := List.pairwise_append.1 h
    rw [collectTyped_concat, ih hpairs, putTyped_of_new fun q hq => hlast q hq p (List.mem_singleton_self p)]

/-! ## Written keys -/

/-- The value, as it is written, of the last entry whose key is written as `text`. -/
def lastWritten? (pairs : List (Value × Value)) (text : String) : Option String :=
  (pairs.filter fun p => p.1.text? = some text).getLast?.bind fun p => p.2.text?

/-- The typed key that counts for a written key: of those that are written so, the one that comes up last. -/
def typedKey? (pairs : List (Value × Value)) (text : String) : Option Value :=
  ((typedKeys pairs).filter fun key => key.text? = some text).getLast?

/-- A list of scalars can be written back, and then gives a key its last value. -/
theorem exists_mapM_pairText? (h : ∀ p ∈ pairs, p.1.isScalar = true ∧ p.2.isScalar = true) :
    ∃ texts, pairs.mapM pairText? = some texts ∧
      ∀ text, OrderedMap.lastValue? texts text = lastWritten? pairs text := by
  induction pairs with
  | nil => exact ⟨[], rfl, fun _ => rfl⟩
  | cons p pairs ih =>
    obtain ⟨⟨hkey, hvalue⟩, hpairs⟩ := List.forall_mem_cons.1 h
    obtain ⟨texts, htexts, hlast⟩ := ih hpairs
    obtain ⟨key, hkey⟩ := Value.exists_text?_of_isScalar hkey
    obtain ⟨value, hvalue⟩ := Value.exists_text?_of_isScalar hvalue
    have hpair : pairText? p = some (key, value) := by
      rw [pairText?, hkey, hvalue]
      rfl
    refine ⟨(key, value) :: texts, ?_, fun text => ?_⟩
    · rw [List.mapM_cons, hpair, htexts]
      rfl
    · rw [OrderedMap.lastValue?_cons, hlast, lastWritten?, lastWritten?, List.filter_cons, hkey]
      by_cases hsame : key = text
      · rw [if_pos hsame, if_pos (by simp [hsame]), List.getLast?_cons]
        cases hrest : (pairs.filter fun p => p.1.text? = some text).getLast? with
        | none => simpa using hvalue.symm
        | some q =>
          -- a later entry has a value that can be written
          obtain ⟨value', hvalue'⟩ := Value.exists_text?_of_isScalar
            (hpairs q (List.mem_filter.1 (List.mem_of_getLast? hrest)).1).2
          simp [hvalue']
      · rw [if_neg hsame, if_neg (by simpa using hsame), Option.or_none]

theorem lastWritten?_collectTyped (hscalar : ∀ p ∈ pairs, p.1.isScalar = true) (text : String) :
    lastWritten? (collectTyped pairs) text =
      (typedKey? pairs text).bind fun key => (lastTyped? pairs key).bind Value.text? := by
  rw [lastWritten?, typedKey?, ← map_fst_collectTyped, List.filter_map, List.getLast?_map]
  have hfilter : ((fun key : Value => decide (key.text? = some text)) ∘ Prod.fst : Value × Value → Bool) =
    fun p => decide (p.1.text? = some text) := rfl
  rw [hfilter]
  cases h : ((collectTyped pairs).filter fun p => decide (p.1.text? = some text)).getLast? with
  | none => rfl
  | some p =>
    have hmem := (List.mem_filter.1 (List.mem_of_getLast? h)).1
    rw [Option.map_some, Option.bind_some, Option.bind_some, lastTyped?_of_mem_collectTyped hscalar hmem]
    rfl

/-- If being written as `text` and being one key are the same, the last entry under the typed key is the last one that
is written so. -/
theorem typedKey?_bind_of_coherent (hscalar : ∀ p ∈ pairs, p.1.isScalar = true) {text : String}
    (h : ∀ p ∈ pairs, p.1.text? = some text → ∀ q ∈ pairs, q.1.text? = some text ↔ p.1.same q.1 = true) :
    ((typedKey? pairs text).bind fun key => (lastTyped? pairs key).bind Value.text?) = lastWritten? pairs text := by
  cases hkey : typedKey? pairs text with
  | none =>
    have hnone : pairs.filter (fun p => p.1.text? = some text) = [] := by
      refine List.filter_eq_nil_iff.2 fun q hq hwritten => ?_
      obtain ⟨key, hmem, hsame⟩ := exists_same_of_mem hq (hscalar q hq)
      obtain ⟨p, hp, rfl⟩ := exists_mem_of_mem_typedKeys hmem
      rw [Value.same_comm (hscalar p hp) (hscalar q hq)] at hsame
      have hp' := (h q hq (of_decide_eq_true hwritten) p hp).2 hsame
      rw [typedKey?, List.getLast?_eq_none_iff, List.filter_eq_nil_iff] at hkey
      exact hkey p.1 hmem (decide_eq_true hp')
    rw [lastWritten?, hnone]
    rfl
  | some key =>
    obtain ⟨hmem, hwritten⟩ := List.mem_filter.1 (List.mem_of_getLast? hkey)
    obtain ⟨p, hp, rfl⟩ := exists_mem_of_mem_typedKeys hmem
    have hfilter : (pairs.filter fun q => p.1.same q.1) = pairs.filter fun q => q.1.text? = some text := by
      refine List.filter_congr fun q hq => ?_
      rw [Bool.eq_iff_iff, decide_eq_true_iff]
      exact (h p hp (of_decide_eq_true hwritten) q hq).symm
    rw [Option.bind_some, lastTyped?, hfilter, lastWritten?]
    cases (pairs.filter fun q => q.1.text? = some text).getLast? <;> rfl

/-- **The value of a written key.** Scalar entries can always be collected. Of the typed keys that are written like
the key, the one that comes up last counts, with the value of its last entry. This is the value of the last entry that
is written like the key if, among the entries, being written so and being one key are the same, or if no typed key is
repeated. -/
theorem entries_follow_typed_keys (pairs : List (Value × Value))
    (h : ∀ p ∈ pairs, p.1.isScalar = true ∧ p.2.isScalar = true) :
    ∃ entries, entriesOf? pairs = some entries ∧ ∀ text,
      entries.get? text = ((typedKey? pairs text).bind fun key => (lastTyped? pairs key).bind Value.text?) ∧
      ((∀ p ∈ pairs, p.1.text? = some text → ∀ q ∈ pairs, q.1.text? = some text ↔ p.1.same q.1 = true) ∨
          pairs.Pairwise (fun p q => p.1.same q.1 = false) →
        entries.get? text = lastWritten? pairs text) := by
  have hkeys : ∀ p ∈ pairs, p.1.isScalar = true := fun p hp => (h p hp).1
  have hcollected : ∀ p ∈ collectTyped pairs, p.1.isScalar = true ∧ p.2.isScalar = true := by
    intro p hp
    have hlast := lastTyped?_of_mem_collectTyped hkeys hp
    obtain ⟨q, hq, hvalue⟩ := Option.map_eq_some_iff.1 hlast
    exact ⟨isScalar_of_mem_collectTyped hkeys hp, hvalue ▸ (h q (List.mem_filter.1 (List.mem_of_getLast? hq)).1).2⟩
  obtain ⟨texts, htexts, hlast⟩ := exists_mapM_pairText? hcollected
  have hget (text : String) : (OrderedMap.ofList texts).get? text = lastWritten? (collectTyped pairs) text :=
    (OrderedMap.get?_ofList texts text).trans (hlast text)
  refine ⟨OrderedMap.ofList texts, by rw [entriesOf?, htexts]; rfl, fun text => ⟨?_, ?_⟩⟩
  · rw [hget, lastWritten?_collectTyped hkeys]
  · rintro (hcoherent | hpairwise)
    · rw [hget, lastWritten?_collectTyped hkeys, typedKey?_bind_of_coherent hkeys hcoherent]
    · rw [hget, collectTyped_of_pairwise hpairwise]

/-- A key that is repeated under one type has its last value, and so has one that comes once as a text and once as a
number. -/
theorem last_value_of_one_key :
    (∃ entries, entriesOf? [(.string "ink", .string "a"), (.bool true, .string "b"), (.string "ink", .string "c")] =
        some entries ∧ entries.get? "ink" = some "c") ∧
    ∃ entries, entriesOf? [(.string "60", .string "a"), (.number (.integer 60), .bool true)] = some entries ∧
      entries.get? "60" = some "true" := by
  obtain ⟨entries, hentries, hget⟩ := entries_follow_typed_keys
    [(.string "ink", .string "a"), (.bool true, .string "b"), (.string "ink", .string "c")] (by decide)
  obtain ⟨entries', hentries', hlast⟩ := entries_follow_typed_keys
    [(.string "60", .string "a"), (.number (.integer 60), .bool true)] (by decide)
  exact ⟨⟨entries, hentries, ((hget "ink").2 (.inl (by decide))).trans (by decide)⟩,
    ⟨entries', hentries', ((hlast "60").2 (.inr (by decide))).trans (by decide)⟩⟩

/-- With a text in front of a number and behind it, the number has the value, and not the last entry. Two zeros are
one key, and the second one loses its name. -/
theorem number_wins_over_later_text :
    (∃ entries, entriesOf? [(.string "60", .string "a"), (.number (.integer 60), .string "b"),
        (.string "60", .string "c")] = some entries ∧
      entries.get? "60" = some "b" ∧
      lastWritten? [(.string "60", .string "a"), (.number (.integer 60), .string "b"), (.string "60", .string "c")]
        "60" = some "c") ∧
    ∃ entries, entriesOf? [(.number (.float false ⟨0, 0⟩), .string "a"), (.number (.float true ⟨0, 0⟩), .string "b")] =
        some entries ∧
      entries.get? "-0.0" = none ∧
      lastWritten? [(.number (.float false ⟨0, 0⟩), .string "a"), (.number (.float true ⟨0, 0⟩), .string "b")] "-0.0" =
        some "b" :=
  ⟨⟨_, rfl, by decide, by decide⟩, ⟨_, rfl, by decide, by decide⟩⟩

end Theme

end AtomicCss
