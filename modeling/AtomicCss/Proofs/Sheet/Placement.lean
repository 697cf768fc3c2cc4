import AtomicCss.Compiler
import AtomicCss.Proofs.Ordered.FirstSeen
import Mathlib.Data.List.Basic
import Mathlib.Data.List.Induction

/-!
# Where the rules of a page go

A sheet sorts rules into *slots*: the rules without queries, those of a media query, those of a container
query, and those of a media query inside a container query. A slot maps bodies to the selectors that share
them. This module reads a sheet back slot by slot and shows that nothing is lost, moved or invented.

## The architecture

* **`Sheet.bucket`**, **`Sheet.Holds`** — the bucket of a slot, and whether it has a selector under a body.
  These are look-ups: nothing in them knows how a sheet is made.
* **`bucket_add`** — one step: adding a rule adds it to the bucket of its queries and leaves every other
  bucket alone. The four kinds of slot are the cases of the proof, two for a sheet without a container
  query and two for the block of one.
* **`holds_ofRules`** — a whole run, by induction on the rules; `mediaQueries_ofRules` and its companions say
  the same of the blocks and the animations.
* **`mem_rules`** — the rules of a page are those of its tokens; `forall₂_rules` says which token stands
  for which rule, so that no token counts twice.
* **`compile_places_rules`** — all put together for the sheet of a page.
-/

namespace AtomicCss

/-! ## Reading a sheet -/

/-- A bucket has a selector under a body. -/
def Bucket.Holds (bucket : Bucket) (body selector : String) : Prop :=
  ∃ selectors, bucket.get? body = some selectors ∧ selector ∈ selectors.toList

/-- The rules of a container query, those without a media query or those of a media query inside. -/
def ContainerBlock.bucket (block : ContainerBlock) : Option String → Bucket
  | none => block.rules
  | some query => (block.media.get? query).getD ∅

/-- The bucket of a slot, which is named by the queries around it: a container query is the outer one. A
slot that a sheet does not have counts as empty. -/
def Sheet.bucket (sheet : Sheet) : Option String → Option String → Bucket
  | none, none => sheet.utilities
  | none, some query => ((sheet.media.get? query).map MediaBlock.rules).getD ∅
  | some container, media => ((sheet.containers.get? container).getD ⟨∅, ∅⟩).bucket media

/-- A slot of the sheet has a selector under a body. -/
def Sheet.Holds (sheet : Sheet) (container media : Option String) (body selector : String) : Prop :=
  (sheet.bucket container media).Holds body selector

/-- The media queries that have a block, on their own or inside a container query. -/
def Sheet.mediaQueries (sheet : Sheet) : Option String → List String
  | none => sheet.media.keys
  | some container => ((sheet.containers.get? container).getD ⟨∅, ∅⟩).media.keys

/-- The queries around a rule are these. -/
def Rule.StandsIn (rule : Rule) (container media : Option String) : Prop :=
  rule.container = container ∧ rule.media.map MediaQuery.query = media

instance (rule : Rule) (container media : Option String) :
    Decidable (rule.StandsIn container media) :=
  inferInstanceAs (Decidable (_ ∧ _))

/-- The media query of a rule, if the rule stands inside this container query or, for `none`, outside of
all. -/
def Rule.queryIn (rule : Rule) (container : Option String) : Option String :=
  if rule.container = container then rule.media.map MediaQuery.query else none

theorem Rule.queryIn_eq_some_iff {rule : Rule} {container : Option String} {query : String} :
    rule.queryIn container = some query ↔ rule.StandsIn container (some query) := by
  simp [queryIn, StandsIn]

/-! ## One rule

`Sheet.add` branches on the queries of the rule. In the slot of the rule the bucket grows by the rule, and
every other bucket stays as it was. -/

theorem Bucket.not_holds_empty (body selector : String) : ¬ Bucket.Holds ∅ body selector := by
  rintro ⟨selectors, hget, -⟩
  simp at hget

/-- **Adding a rule to a bucket** adds its selector under its body, and nothing else. -/
theorem Bucket.holds_add (bucket : Bucket) (rule : Rule) (body selector : String) :
    (bucket.add rule).Holds body selector ↔
      (rule.selector = selector ∧ rule.body = body) ∨ bucket.Holds body selector := by
  unfold Holds Bucket.add
  rw [OrderedMap.get?_alter]
  by_cases hbody : body = rule.body
  · subst hbody
    -- the line of this body is the one that changes; a line that is not there yet is an empty one
    have hold : selector ∈ ((bucket.get? rule.body).getD ∅).toList ↔
        ∃ selectors, bucket.get? rule.body = some selectors ∧ selector ∈ selectors.toList := by
      cases bucket.get? rule.body with
      | none => simp [EmptyCollection.emptyCollection, OrderedSet.empty]
      | some selectors => simp
    simp [OrderedSet.mem_insert, hold, eq_comm]
  · have hbody' : rule.body ≠ body := fun h => hbody h.symm
    simp [hbody, hbody']

/-- Adding a rule to the block of a container query changes the bucket of its media query. -/
theorem ContainerBlock.bucket_add (block : ContainerBlock) (rule : Rule) (media : Option String) :
    (block.add rule).bucket media =
      if rule.media.map MediaQuery.query = media then (block.bucket media).add rule
      else block.bucket media := by
  cases hm : rule.media with
  | none => cases media <;> simp [ContainerBlock.add, hm, bucket]
  | some query =>
    cases media with
    | none => simp [ContainerBlock.add, hm, bucket]
    | some other =>
      by_cases h : other = query.query
      · simp [ContainerBlock.add, hm, bucket, OrderedMap.get?_alter, h]
      · have h' : query.query ≠ other := fun e => h e.symm
        simp [ContainerBlock.add, hm, bucket, OrderedMap.get?_alter, h, h']

namespace Sheet

/-- **Adding a rule to a sheet** changes the bucket of its slot. -/
theorem bucket_addRule (sheet : Sheet) (rule : Rule) (container media : Option String) :
    (sheet.addRule rule).bucket container media =
      if rule.StandsIn container media then (sheet.bucket container media).add rule
      else sheet.bucket container media := by
  cases hc : rule.container with
  | some outer =>
    -- the block of the container takes the rule, and there `ContainerBlock.bucket_add` decides
    cases container with
    | none => cases media <;> simp [addRule, hc, bucket, Rule.StandsIn]
    | some other =>
      by_cases h : other = outer
      · simp [addRule, hc, bucket, Rule.StandsIn, OrderedMap.get?_alter, ContainerBlock.bucket_add, h]
      · have h' : outer ≠ other := fun e => h e.symm
        simp [addRule, hc, bucket, Rule.StandsIn, OrderedMap.get?_alter, h, h']
  | none =>
    cases container with
    -- a rule without a container query touches no container block
    | some other => cases hm : rule.media <;> simp [addRule, hc, hm, bucket, Rule.StandsIn]
    | none =>
      cases hm : rule.media with
      | none => cases media <;> simp [addRule, hc, hm, bucket, Rule.StandsIn]
      | some query =>
        cases media with
        | none => simp [addRule, hc, hm, bucket, Rule.StandsIn]
        | some other =>
          by_cases h : other = query.query
          -- the block of this media query, or a new one, takes the rule
          · cases hb : sheet.media.get? query.query <;>
              simp [addRule, hc, hm, bucket, Rule.StandsIn, OrderedMap.get?_alter, h, hb, MediaBlock.add]
          · have h' : query.query ≠ other := fun e => h e.symm
            simp [addRule, hc, hm, bucket, Rule.StandsIn, OrderedMap.get?_alter, h, h']

theorem bucket_addKeyframes (sheet : Sheet) (name : Option String) :
    (sheet.addKeyframes name).bucket = sheet.bucket := by
  funext container media
  cases name <;> cases container <;> cases media <;> rfl

/-- Adding a rule with its animation changes the bucket of its slot. -/
theorem bucket_add (sheet : Sheet) (rule : Rule) (container media : Option String) :
    (sheet.add rule).bucket container media =
      if rule.StandsIn container media then (sheet.bucket container media).add rule
      else sheet.bucket container media := by
  rw [add, bucket_addRule, bucket_addKeyframes]

theorem not_holds_empty (container media : Option String) (body selector : String) :
    ¬ Sheet.Holds ∅ container media body selector := by
  cases container <;> cases media <;> exact Bucket.not_holds_empty body selector

/-- **What one rule adds**: its selector, under its body, in its slot. -/
theorem holds_add (sheet : Sheet) (rule : Rule) (container media : Option String)
    (body selector : String) :
    (sheet.add rule).Holds container media body selector ↔
      (rule.StandsIn container media ∧ rule.selector = selector ∧ rule.body = body) ∨
        sheet.Holds container media body selector := by
  unfold Holds
  rw [bucket_add]
  split
  · rename_i h
    simp [Bucket.holds_add, h]
  · rename_i h
    simp [h]

/-- **A rule gives a block to its media query**, on its own or inside its container query, and a new block
comes last. -/
theorem mediaQueries_add (sheet : Sheet) (rule : Rule) (container : Option String) :
    (sheet.add rule).mediaQueries container =
      match rule.queryIn container with
      | none => sheet.mediaQueries container
      | some query =>
        if query ∈ sheet.mediaQueries container then sheet.mediaQueries container
        else sheet.mediaQueries container ++ [query] := by
  -- the animation shows in no block
  have hkeyframes : (sheet.addKeyframes rule.keyframes).mediaQueries container =
      sheet.mediaQueries container := by
    cases rule.keyframes <;> cases container <;> rfl
  rw [add, ← hkeyframes]
  cases hc : rule.container with
  | none =>
    cases container with
    -- a rule without a container query touches no container block
    | some other => cases hm : rule.media <;> simp [addRule, hc, hm, mediaQueries, Rule.queryIn]
    | none =>
      cases hm : rule.media with
      | none => simp [addRule, hc, hm, mediaQueries, Rule.queryIn]
      | some media =>
        simp only [addRule, hc, hm, mediaQueries, Rule.queryIn, if_true, Option.map_some,
          OrderedMap.keys_alter]
        exact if_congr Iff.rfl rfl rfl
  | some outer =>
    cases container with
    | none => simp [addRule, hc, mediaQueries, Rule.queryIn]
    | some other =>
      by_cases h : other = outer
      · cases hm : rule.media <;>
          simp [addRule, hc, hm, mediaQueries, Rule.queryIn, OrderedMap.get?_alter, ContainerBlock.add,
            OrderedMap.keys_alter, h]
      · have h' : outer ≠ other := fun e => h e.symm
        simp [addRule, hc, mediaQueries, Rule.queryIn, OrderedMap.get?_alter, h, h']

/-- A rule gives a block to its container query. -/
theorem mem_containers_add (sheet : Sheet) (rule : Rule) (query : String) :
    query ∈ (sheet.add rule).containers.keys ↔
      rule.container = some query ∨ query ∈ sheet.containers.keys := by
  have hkeyframes : (sheet.addKeyframes rule.keyframes).containers = sheet.containers := by
    cases rule.keyframes <;> rfl
  rw [add, ← hkeyframes]
  cases hc : rule.container <;> cases hm : rule.media <;>
    simp [addRule, hc, hm, OrderedMap.mem_keys_alter, eq_comm]

/-- A rule brings its animation. -/
theorem mem_keyframes_add (sheet : Sheet) (rule : Rule) (name : String) :
    name ∈ (sheet.add rule).keyframes.toList ↔
      rule.keyframes = some name ∨ name ∈ sheet.keyframes.toList := by
  -- the slots of a rule and its animation are kept apart
  have hrule (s : Sheet) : (s.addRule rule).keyframes = s.keyframes := by
    cases hc : rule.container <;> cases hm : rule.media <;> simp [addRule, hc, hm]
  rw [add, hrule]
  cases rule.keyframes <;> simp [addKeyframes, OrderedSet.mem_insert, eq_comm]

/-! ## A list of rules -/

/-- **What a run adds.** A fact that every added rule brings in or leaves alone holds of the sheet of a list
of rules exactly if one of the rules brings it in. -/
theorem ofRules_iff {P : Sheet → Prop} {brings : Rule → Prop}
    (hstep : ∀ sheet rule, P (sheet.add rule) ↔ brings rule ∨ P sheet) (hempty : ¬ P ∅)
    (rules : List Rule) : P (ofRules rules) ↔ ∃ rule ∈ rules, brings rule := by
  have hrun : ∀ (rules : List Rule) (sheet : Sheet),
      P (rules.foldl add sheet) ↔ (∃ rule ∈ rules, brings rule) ∨ P sheet := by
    intro rules
    -- induction on the rules, for any sheet in front
    induction rules with
    | nil => simp
    | cons rule rules ih =>
      intro sheet
      rw [List.foldl_cons, ih, hstep, ← or_assoc]
      simp [or_comm]
  rw [ofRules, hrun, or_iff_left hempty]

/-- **The lines of a run** are the selectors of its rules. -/
theorem holds_ofRules (rules : List Rule) (container media : Option String) (body selector : String) :
    (ofRules rules).Holds container media body selector ↔
      ∃ rule ∈ rules, rule.StandsIn container media ∧ rule.selector = selector ∧ rule.body = body :=
  ofRules_iff (P := (Holds · container media body selector))
    (fun sheet rule => holds_add sheet rule container media body selector)
    (not_holds_empty container media body selector) rules

/-- **The media queries of a run** are those of its rules, in first-seen order. Induction on the rules from
their end. -/
theorem mediaQueries_ofRules (rules : List Rule) (container : Option String) :
    (ofRules rules).mediaQueries container = distinct (rules.filterMap (·.queryIn container)) := by
  induction rules using List.reverseRecOn with
  | nil => cases container <;> rfl
  | append_singleton rules rule ih =>
    rw [ofRules_append, List.foldl_cons, List.foldl_nil, mediaQueries_add, ih, List.filterMap_append]
    cases h : rule.queryIn container with
    | none => rw [List.filterMap_cons, h, List.filterMap_nil, List.append_nil]
    | some query =>
      rw [List.filterMap_cons, h, List.filterMap_nil, distinct_concat]
      simp only [mem_distinct]

theorem mem_mediaQueries_ofRules (rules : List Rule) (container : Option String) (query : String) :
    query ∈ (ofRules rules).mediaQueries container ↔
      ∃ rule ∈ rules, rule.StandsIn container (some query) := by
  rw [mediaQueries_ofRules, mem_distinct, List.mem_filterMap]
  simp only [Rule.queryIn_eq_some_iff]

theorem mem_containers_ofRules (rules : List Rule) (query : String) :
    query ∈ (ofRules rules).containers.keys ↔ ∃ rule ∈ rules, rule.container = some query :=
  ofRules_iff (P := (query ∈ ·.containers.keys))
    (fun sheet rule => mem_containers_add sheet rule query) List.not_mem_nil rules

theorem mem_keyframes_ofRules (rules : List Rule) (name : String) :
    name ∈ (ofRules rules).keyframes.toList ↔ ∃ rule ∈ rules, rule.keyframes = some name :=
  ofRules_iff (P := (name ∈ ·.keyframes.toList))
    (fun sheet rule => mem_keyframes_add sheet rule name) List.not_mem_nil rules

end Sheet

/-! ## The tokens of a page -/

namespace Compiler

variable (compiler : Compiler) (tokens : List String)

/-- The distinct tokens that have a rule. -/
def resolved : List String :=
  (distinct tokens).filter fun token => (compiler.resolve? token).isSome

theorem mem_rules {rule : Rule} :
    rule ∈ compiler.rules tokens ↔ ∃ token ∈ tokens, compiler.resolve? token = some rule := by
  simp [rules, mem_distinct]

/-- Token by token, the rules of a page are those of the distinct tokens that have one. -/
theorem forall₂_rules :
    List.Forall₂ (fun token rule => compiler.resolve? token = some rule)
      (compiler.resolved tokens) (compiler.rules tokens) := by
  unfold resolved rules
  induction distinct tokens with
  | nil => exact .nil
  | cons token rest ih =>
    cases h : compiler.resolve? token with
    -- a token without a rule is in neither list
    | none => simpa [h] using ih
    | some rule =>
      simp only [List.filter_cons, h, Option.isSome_some, if_true, List.filterMap_cons_some h]
      exact .cons h ih

/-- Every distinct token is in one of two lists: those with a rule and those without. -/
theorem resolved_append_unresolved_perm :
    (compiler.resolved tokens ++ compiler.unresolved tokens).Perm (distinct tokens) := by
  have hnot : compiler.unresolved tokens =
      (distinct tokens).filter fun token => !(compiler.resolve? token).isSome := by
    simp [unresolved]
  rw [hnot]
  exact List.filter_append_perm _ _

/-- Whether some token of a page has a rule with a property: the tokens by themselves, without a sheet. -/
def HasRule (property : Rule → Prop) : Prop :=
  ∃ token ∈ tokens, ∃ rule, compiler.resolve? token = some rule ∧ property rule

/-- A property of some rule of the page is one of the rule of some token. -/
theorem exists_mem_rules_iff (property : Rule → Prop) :
    (∃ rule ∈ compiler.rules tokens, property rule) ↔ compiler.HasRule tokens property := by
  simp only [mem_rules, HasRule]
  constructor
  · rintro ⟨rule, ⟨token, htoken, hrule⟩, hproperty⟩
    exact ⟨token, htoken, rule, hrule, hproperty⟩
  · rintro ⟨token, htoken, rule, hrule, hproperty⟩
    exact ⟨rule, ⟨token, htoken, hrule⟩, hproperty⟩

/-- **The sheet of a page places the rules of its tokens.**

* A selector stands under a body in a slot exactly if the rule of some token has this selector, this body
  and the queries of the slot.
* In every slot a body occurs once, and under a body every selector occurs once.
* A media query has one block, alone or inside a container query, exactly if some rule stands in it, and
  so does a container query; an animation is listed once, exactly if some rule uses it.
* The tokens with a rule and those reported as unresolved are, together, the tokens of the page, each
  once; each of the former adds its rule, one after the other, and the sheet is made of nothing else. -/
theorem compile_places_rules :
    (∀ container media body selector,
      (compiler.compile tokens).Holds container media body selector ↔
        compiler.HasRule tokens fun rule =>
          rule.selector = selector ∧ rule.body = body ∧ rule.container = container ∧
            rule.media.map MediaQuery.query = media) ∧
    (∀ container media,
      ((compiler.compile tokens).bucket container media).keys.Nodup ∧
        ∀ line ∈ ((compiler.compile tokens).bucket container media).entries, line.2.toList.Nodup) ∧
    (∀ container,
      ((compiler.compile tokens).mediaQueries container).Nodup ∧
        ∀ query, query ∈ (compiler.compile tokens).mediaQueries container ↔
          compiler.HasRule tokens fun rule =>
            rule.container = container ∧ rule.media.map MediaQuery.query = some query) ∧
    ((compiler.compile tokens).containers.keys.Nodup ∧
      ∀ query, query ∈ (compiler.compile tokens).containers.keys ↔
        compiler.HasRule tokens fun rule => rule.container = some query) ∧
    ((compiler.compile tokens).keyframes.toList.Nodup ∧
      ∀ name, name ∈ (compiler.compile tokens).keyframes.toList ↔
        compiler.HasRule tokens fun rule => rule.keyframes = some name) ∧
    (compiler.resolved tokens ++ compiler.unresolved tokens).Nodup ∧
    (∀ token, token ∈ compiler.resolved tokens ++ compiler.unresolved tokens ↔ token ∈ tokens) ∧
    (∀ token ∈ compiler.unresolved tokens, compiler.resolve? token = none) ∧
    ∃ rules components,
      List.Forall₂ (fun token rule => compiler.resolve? token = some rule)
        (compiler.resolved tokens) rules ∧
      compiler.compile tokens = { rules.foldl Sheet.add ∅ with components } := by
  have hperm := compiler.resolved_append_unresolved_perm tokens
  refine ⟨fun container media body selector => ?_, fun container media => ⟨?_, fun line _ => ?_⟩,
    fun container => ⟨?_, fun query => ?_⟩, ⟨?_, fun query => ?_⟩, ⟨?_, fun name => ?_⟩,
    ?_, fun token => ?_, fun token htoken => ?_, ?_⟩
  · -- components are no rules, so the slots are those of the run over the rules
    have hholds : (compiler.compile tokens).Holds container media body selector ↔
        (Sheet.ofRules (compiler.rules tokens)).Holds container media body selector := by
      cases container <;> cases media <;> exact Iff.rfl
    have hslot (rule : Rule) :
        (rule.StandsIn container media ∧ rule.selector = selector ∧ rule.body = body) ↔
          rule.selector = selector ∧ rule.body = body ∧ rule.container = container ∧
            rule.media.map MediaQuery.query = media :=
      ⟨fun ⟨⟨hc, hm⟩, hs, hb⟩ => ⟨hs, hb, hc, hm⟩, fun ⟨hs, hb, hc, hm⟩ => ⟨⟨hc, hm⟩, hs, hb⟩⟩
    simp only [hholds, Sheet.holds_ofRules, ← exists_mem_rules_iff, hslot]
  · exact OrderedMap.nodup_keys _
  · exact line.2.nodup
  · cases container <;> exact OrderedMap.nodup_keys _
  · have hqueries : (compiler.compile tokens).mediaQueries container =
        (Sheet.ofRules (compiler.rules tokens)).mediaQueries container := by
      cases container <;> rfl
    rw [hqueries, Sheet.mem_mediaQueries_ofRules, ← exists_mem_rules_iff]
    rfl
  · exact OrderedMap.nodup_keys _
  · rw [← exists_mem_rules_iff]
    exact Sheet.mem_containers_ofRules (compiler.rules tokens) query
  · exact OrderedSet.nodup _
  · rw [← exists_mem_rules_iff]
    exact Sheet.mem_keyframes_ofRules (compiler.rules tokens) name
  · exact hperm.nodup_iff.2 (nodup_distinct tokens)
  · rw [hperm.mem_iff, mem_distinct]
  · simpa [unresolved] using (List.mem_filter.1 htoken).2
  · exact ⟨compiler.rules tokens, _, compiler.forall₂_rules tokens, rfl⟩

end Compiler

end AtomicCss
