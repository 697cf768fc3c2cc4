import AtomicCss.Proofs.Sheet.MediaOrder

/-!
# Sheets only grow

A page that is compiled as it is written keeps what it has: more tokens put lines, blocks and animations behind
those that are there and move none of them. The only thing that changes in place is the priority of a media
block, which may go down when its query comes up under a name.

## The architecture

* **`Bucket.Grows`**, **`Sheet.Grows`** — what it takes to be a later state of a bucket or a sheet. Both are
  reflexive and transitive.
* **`Bucket.grows_add`** — a rule goes behind the selectors of its body, or opens a line behind all others.
* **`Sheet.grows_add`** — one step, slot by slot. `Sheet.grows_foldl` is the run.
* **`Compiler.compile_append_grows`** — more tokens give more rules and more components.
-/

namespace AtomicCss

/-! ## Maps and sets -/

theorem OrderedMap.keys_prefix_alter {κ ν : Type} [DecidableEq κ] (m : OrderedMap κ ν) (key : κ)
    (f : Option ν → ν) : m.keys <+: (m.alter key f).keys := by
  rw [keys_alter]
  split
  · exact List.prefix_refl _
  · exact List.prefix_append _ _

theorem OrderedSet.toList_prefix_insert {α : Type} [DecidableEq α] (s : OrderedSet α) (a : α) :
    s.toList <+: (s.insert a).toList := by
  rw [toList_insert]
  split
  · exact List.prefix_refl _
  · exact List.prefix_append _ _

/-! ## Buckets -/

/-- A bucket has the bodies of another in front, and under each of these its selectors in front. -/
structure Bucket.Grows (bucket bucket' : Bucket) : Prop where
  bodies : bucket.keys <+: bucket'.keys
  selectors : ∀ body selectors, bucket.get? body = some selectors →
    ∃ selectors', bucket'.get? body = some selectors' ∧ selectors.toList <+: selectors'.toList

namespace Bucket

variable {bucket bucket' bucket'' : Bucket}

theorem Grows.refl (bucket : Bucket) : bucket.Grows bucket :=
  ⟨List.prefix_refl _, fun _ selectors h => ⟨selectors, h, List.prefix_refl _⟩⟩

theorem Grows.trans (h : bucket.Grows bucket') (h' : bucket'.Grows bucket'') : bucket.Grows bucket'' := by
  refine ⟨h.bodies.trans h'.bodies, fun body selectors hget => ?_⟩
  obtain ⟨selectors', hget', hprefix⟩ := h.selectors body selectors hget
  obtain ⟨selectors'', hget'', hprefix'⟩ := h'.selectors body selectors' hget'
  exact ⟨selectors'', hget'', hprefix.trans hprefix'⟩

theorem grows_add (bucket : Bucket) (rule : Rule) : bucket.Grows (bucket.add rule) := by
  refine ⟨OrderedMap.keys_prefix_alter .., fun body selectors hget => ?_⟩
  unfold add
  rw [OrderedMap.get?_alter]
  by_cases hbody : body = rule.body
  · -- the line is there already and takes the selector at its end
    rw [if_pos hbody, ← hbody, hget]
    exact ⟨_, rfl, OrderedSet.toList_prefix_insert ..⟩
  · rw [if_neg hbody]
    exact ⟨selectors, hget, List.prefix_refl _⟩

end Bucket

/-! ## Sheets -/

/-- A sheet is a later state of another: whatever that one lists, it lists in front and in the same order. -/
structure Sheet.Grows (sheet sheet' : Sheet) : Prop where
  /-- In every slot the lines are in front: those without queries, those of a media query, those of a container
  query, and those of a media query inside a container query. -/
  buckets : ∀ container media, (sheet.bucket container media).Grows (sheet'.bucket container media)
  /-- The media queries are in front, alone and inside every container query. -/
  mediaQueries : ∀ container, sheet.mediaQueries container <+: sheet'.mediaQueries container
  containers : sheet.containers.keys <+: sheet'.containers.keys
  keyframes : sheet.keyframes.toList <+: sheet'.keyframes.toList
  components : sheet.components <+: sheet'.components
  /-- The priority of a media block may go down. -/
  priorities : ∀ query block, sheet.media.get? query = some block →
    ∃ block', sheet'.media.get? query = some block' ∧ block'.priority ≤ block.priority

namespace Sheet

variable {sheet sheet' sheet'' : Sheet}

theorem Grows.refl (sheet : Sheet) : sheet.Grows sheet where
  buckets _ _ := .refl _
  mediaQueries _ := List.prefix_refl _
  containers := List.prefix_refl _
  keyframes := List.prefix_refl _
  components := List.prefix_refl _
  priorities _ block h := ⟨block, h, Nat.le_refl _⟩

theorem Grows.trans (h : sheet.Grows sheet') (h' : sheet'.Grows sheet'') : sheet.Grows sheet'' where
  buckets container media := (h.buckets container media).trans (h'.buckets container media)
  mediaQueries container := (h.mediaQueries container).trans (h'.mediaQueries container)
  containers := h.containers.trans h'.containers
  keyframes := h.keyframes.trans h'.keyframes
  components := h.components.trans h'.components
  priorities query block hget := by
    obtain ⟨block', hget', hle⟩ := h.priorities query block hget
    obtain ⟨block'', hget'', hle'⟩ := h'.priorities query block' hget'
    exact ⟨block'', hget'', Nat.le_trans hle' hle⟩

theorem mediaQueries_prefix_add (sheet : Sheet) (rule : Rule) (container : Option String) :
    sheet.mediaQueries container <+: (sheet.add rule).mediaQueries container := by
  rw [mediaQueries_add]
  split
  · exact List.prefix_refl _
  · split
    · exact List.prefix_refl _
    · exact List.prefix_append _ _

theorem containers_prefix_add (sheet : Sheet) (rule : Rule) :
    sheet.containers.keys <+: (sheet.add rule).containers.keys := by
  have hkeyframes : (sheet.addKeyframes rule.keyframes).containers = sheet.containers := by
    cases rule.keyframes <;> rfl
  rw [add, ← hkeyframes, addRule]
  split
  · exact OrderedMap.keys_prefix_alter ..
  · exact List.prefix_refl _
  · exact List.prefix_refl _

theorem keyframes_prefix_add (sheet : Sheet) (rule : Rule) :
    sheet.keyframes.toList <+: (sheet.add rule).keyframes.toList := by
  have hrule (s : Sheet) : (s.addRule rule).keyframes = s.keyframes := by
    rw [addRule]
    split <;> rfl
  rw [add, hrule]
  cases rule.keyframes with
  | none => exact List.prefix_refl _
  | some name => exact OrderedSet.toList_prefix_insert ..

theorem components_add (sheet : Sheet) (rule : Rule) : (sheet.add rule).components = sheet.components := by
  have hkeyframes : (sheet.addKeyframes rule.keyframes).components = sheet.components := by
    cases rule.keyframes <;> rfl
  rw [add, ← hkeyframes, addRule]
  split <;> rfl

theorem priority_add_le {query : String} {block : MediaBlock} (rule : Rule)
    (h : sheet.media.get? query = some block) :
    ∃ block', (sheet.add rule).media.get? query = some block' ∧ block'.priority ≤ block.priority := by
  by_cases hstands : rule.StandsIn none (some query)
  · obtain ⟨priority, hranks⟩ := hstands.exists_ranks
    rw [get?_media_add_of_ranks hranks, h]
    exact ⟨_, rfl, Nat.min_le_left _ _⟩
  · rw [get?_media_add_of_not hstands]
    exact ⟨block, h, Nat.le_refl _⟩

/-- **A rule leaves a sheet as it was, and adds to it.** In the slot of the rule the bucket grows, and every other
bucket stays. -/
theorem grows_add (sheet : Sheet) (rule : Rule) : sheet.Grows (sheet.add rule) where
  buckets container media := by
    rw [bucket_add]
    split
    · exact Bucket.grows_add ..
    · exact .refl _
  mediaQueries container := mediaQueries_prefix_add sheet rule container
  containers := containers_prefix_add sheet rule
  keyframes := keyframes_prefix_add sheet rule
  components := (components_add sheet rule).symm ▸ List.prefix_refl _
  priorities _ _ h := priority_add_le rule h

theorem grows_foldl (rules : List Rule) (sheet : Sheet) : sheet.Grows (rules.foldl add sheet) := by
  -- induction on the rules, the sheet growing
  induction rules generalizing sheet with
  | nil => exact .refl sheet
  | cons rule rules ih => exact (grows_add sheet rule).trans (ih _)

/-- Components are listed apart from the rules. -/
theorem Grows.withComponents (h : sheet.Grows sheet') {components components' : List String}
    (hcomponents : components <+: components') :
    Sheet.Grows { sheet with components } { sheet' with components := components' } where
  buckets := by
    rintro (_ | container) (_ | media)
    · exact h.buckets none none
    · exact h.buckets none (some media)
    · exact h.buckets (some container) none
    · exact h.buckets (some container) (some media)
  mediaQueries := by
    rintro (_ | container)
    · exact h.mediaQueries none
    · exact h.mediaQueries (some container)
  containers := h.containers
  keyframes := h.keyframes
  components := hcomponents
  priorities := h.priorities

end Sheet

/-! ## Pages -/

namespace Compiler

variable (compiler : Compiler) (tokens more : List String)

theorem rules_prefix_append : compiler.rules tokens <+: compiler.rules (tokens ++ more) :=
  (distinct_prefix_append tokens more).filterMap _

theorem componentNames_prefix_append :
    compiler.componentNames tokens <+: compiler.componentNames (tokens ++ more) := by
  rw [componentNames, componentNames, distinct_filterMap_distinct, distinct_filterMap_distinct,
    List.filterMap_append]
  exact distinct_prefix_append _ _

/-- **More tokens leave the sheet of a page as it was, and add to it.** -/
theorem compile_append_grows : (compiler.compile tokens).Grows (compiler.compile (tokens ++ more)) := by
  obtain ⟨added, hadded⟩ := compiler.rules_prefix_append tokens more
  have hrules : (Sheet.ofRules (compiler.rules tokens)).Grows
      (Sheet.ofRules (compiler.rules (tokens ++ more))) := by
    rw [← hadded, Sheet.ofRules_append]
    exact Sheet.grows_foldl _ _
  exact hrules.withComponents ((compiler.componentNames_prefix_append tokens more).filterMap _)

end Compiler

end AtomicCss
