import AtomicCss.Proofs.Sheet.Placement

/-!
# Tokens that do not count

Most words in the class attributes of a page are no utilities, and most utilities occur many times over. The sheet
of a page shows neither: it is made from the first occurrences of those tokens that have a rule or ask for a
component, and it is empty, as its text is, exactly if there are none.

## The architecture

* **`distinct_eq_eraseDups`** — the distinct elements of a list are what is left without its repetitions.
* **`Sheet.isEmpty_iff`**, **`Sheet.renderBody_eq_empty_iff`** — a sheet has no text exactly if there is nothing
  on it, as every block that is written has at least its braces.
* **`Compiler.essential`** — the tokens that count. `compile_essential` says that the others may be left out,
  `compile_isEmpty_iff` that without them there is nothing.
* **`Compiler.only_essential_tokens_show`** — both together, for the sheet of a page and for its text.
-/

namespace AtomicCss

/-! ## First occurrences -/

section Distinct

variable {α : Type} [DecidableEq α]

theorem distinct_eq_eraseDups (l : List α) : distinct l = l.eraseDups := by
  induction l using List.reverseRecOn with
  | nil => rfl
  | append_singleton l a ih =>
    rw [distinct_concat, List.eraseDups_append, ih]
    -- the last element is new, or it is removed
    by_cases ha : a ∈ l
    · have hnone : [a].removeAll l = [] := by simp [List.removeAll, ha]
      rw [if_pos ha, hnone, List.eraseDups_nil, List.append_nil]
    · have hsome : [a].removeAll l = [a] := by simp [List.removeAll, ha]
      rw [if_neg ha, hsome]
      rfl

theorem distinct_of_nodup {l : List α} (h : l.Nodup) : distinct l = l := by
  induction l using List.reverseRecOn with
  | nil => rfl
  | append_singleton l a ih =>
    obtain ⟨hl, -, hapart⟩ := List.nodup_append.1 h
    have hnew : a ∉ l := fun ha => hapart a ha a (List.mem_singleton_self a) rfl
    rw [distinct_concat, if_neg hnew, ih hl]

end Distinct

/-! ## Empty sheets -/

namespace Sheet

variable {sheet : Sheet}

theorem isEmpty_iff : sheet.isEmpty = true ↔ sheet = ∅ := by
  constructor
  · intro h
    obtain ⟨⟨utilities, _⟩, ⟨keyframes, _⟩, ⟨media, _⟩, ⟨containers, _⟩, components⟩ := sheet
    simp only [isEmpty, OrderedMap.isEmpty, OrderedSet.isEmpty, Bool.and_eq_true, List.isEmpty_iff] at h
    obtain ⟨⟨⟨⟨rfl, rfl⟩, rfl⟩, rfl⟩, rfl⟩ := h
    rfl
  · rintro rfl
    rfl

theorem block_ne_empty (indent heading content : String) : block indent heading content ≠ "" := by
  intro h
  exact absurd (String.append_eq_empty_iff.1 h).2 (by decide)

theorem join_map_eq_empty_iff {α : Type} {text : α → String} (htext : ∀ a, text a ≠ "") {l : List α} :
    String.join (l.map text) = "" ↔ l = [] := by
  cases l with
  | nil => simp
  | cons a l => simp [String.append_eq_empty_iff, htext a]

theorem renderPlain_eq_empty_iff :
    sheet.renderPlain = "" ↔ sheet.utilities.isEmpty = true ∧ sheet.keyframes.isEmpty = true := by
  rw [← Bool.and_eq_true, renderPlain]
  split
  · rename_i h
    exact iff_of_true rfl h
  · rename_i h
    exact iff_of_false (block_ne_empty _ _ _) h

theorem renderComponents_eq_empty_iff {components : List String} :
    renderComponents components = "" ↔ components = [] := by
  rw [← List.isEmpty_iff, renderComponents]
  split
  · rename_i h
    exact iff_of_true rfl h
  · rename_i h
    exact iff_of_false (block_ne_empty _ _ _) h

/-- **A sheet has no text exactly if there is nothing on it.** -/
theorem renderBody_eq_empty_iff : sheet.renderBody = "" ↔ sheet.isEmpty = true := by
  have hmediaBlock (entry : String × MediaBlock) : renderMedia entry ≠ "" := block_ne_empty _ _ _
  have hcontainerBlock (entry : String × ContainerBlock) : renderContainer entry ≠ "" := block_ne_empty _ _ _
  -- sorting keeps the number of blocks
  have hsorted : sheet.sortedMedia = [] ↔ sheet.media.isEmpty = true := by
    rw [OrderedMap.isEmpty, List.isEmpty_iff, ← List.length_eq_zero_iff, sortedMedia, List.length_mergeSort,
      List.length_eq_zero_iff]
  have hcontainers : sheet.containers.entries = [] ↔ sheet.containers.isEmpty = true := List.isEmpty_iff.symm
  have hcomponents : sheet.components = [] ↔ sheet.components.isEmpty = true := List.isEmpty_iff.symm
  rw [renderBody, String.append_eq_empty_iff, String.append_eq_empty_iff, String.append_eq_empty_iff,
    renderPlain_eq_empty_iff, join_map_eq_empty_iff hmediaBlock, hsorted,
    join_map_eq_empty_iff hcontainerBlock, hcontainers, renderComponents_eq_empty_iff, hcomponents]
  simp only [isEmpty, Bool.and_eq_true]

end Sheet

/-- A component that a base utility belongs to is in the library. -/
theorem Library.exists_get?_of_matchBase? {library : Library} {base name : String}
    (h : library.matchBase? base = some name) : ∃ css, library.get? name = some css :=
  OrderedMap.mem_keys_iff.1 (List.mem_of_mem_filter (longest?_eq_some h).1)

/-! ## The tokens that count -/

namespace Compiler

variable (compiler : Compiler) (tokens : List String)

/-- A token has a rule or asks for a component. -/
def counts (token : String) : Bool :=
  (compiler.resolve? token).isSome || (compiler.component? token).isSome

/-- The first occurrences of the tokens that count. -/
def essential : List String :=
  tokens.eraseDups.filter compiler.counts

variable {compiler} in
theorem counts_eq_false_iff {token : String} :
    compiler.counts token = false ↔ compiler.resolve? token = none ∧ compiler.component? token = none := by
  rw [counts, Bool.or_eq_false_iff, Option.isSome_eq_false_iff, Option.isSome_eq_false_iff,
    Option.isNone_iff_eq_none, Option.isNone_iff_eq_none]

theorem essential_eq_nil_iff :
    compiler.essential tokens = [] ↔
      ∀ token ∈ tokens, compiler.resolve? token = none ∧ compiler.component? token = none := by
  simp only [essential, List.filter_eq_nil_iff, List.mem_eraseDups, Bool.not_eq_true, counts_eq_false_iff]

/-- What comes of the tokens that count is all that comes of the tokens. -/
theorem filterMap_essential {β : Type} {f : String → Option β}
    (hf : ∀ token, compiler.counts token = false → f token = none) :
    (distinct (compiler.essential tokens)).filterMap f = (distinct tokens).filterMap f := by
  have hnodup : (compiler.essential tokens).Nodup := by
    rw [essential, ← distinct_eq_eraseDups]
    exact (nodup_distinct tokens).filter _
  rw [distinct_of_nodup hnodup, essential, ← distinct_eq_eraseDups, List.filterMap_filter]
  refine List.filterMap_congr fun token _ => ?_
  cases hcounts : compiler.counts token with
  | true => rfl
  | false => rw [hf token hcounts, if_neg Bool.false_ne_true]

/-- **The tokens that do not count may be left out**, wherever they stand among the others. -/
theorem compile_essential : compiler.compile (compiler.essential tokens) = compiler.compile tokens := by
  have hrules : compiler.rules (compiler.essential tokens) = compiler.rules tokens :=
    compiler.filterMap_essential tokens fun _ h => (counts_eq_false_iff.1 h).1
  have hnames : compiler.componentNames (compiler.essential tokens) = compiler.componentNames tokens :=
    congrArg distinct (compiler.filterMap_essential tokens fun _ h => (counts_eq_false_iff.1 h).2)
  rw [compile, compile, hrules, hnames]

variable {compiler tokens} in
theorem holds_compile_of_mem {rule : Rule} (h : rule ∈ compiler.rules tokens) :
    (compiler.compile tokens).Holds rule.container (rule.media.map MediaQuery.query) rule.body rule.selector := by
  have hplaced := (Sheet.holds_ofRules (compiler.rules tokens) rule.container _ rule.body rule.selector).2
    ⟨rule, h, ⟨rfl, rfl⟩, rfl, rfl⟩
  -- the components leave the slots alone
  cases hc : rule.container <;> cases hm : rule.media <;> rw [hc, hm] at hplaced <;> exact hplaced

theorem resolve?_eq_none_of_compile_eq_empty (h : compiler.compile tokens = ∅) :
    ∀ token ∈ tokens, compiler.resolve? token = none := by
  intro token htoken
  rw [Option.eq_none_iff_forall_ne_some]
  intro rule hrule
  -- a rule has a place, and an empty sheet has none
  have hplaced := holds_compile_of_mem ((compiler.mem_rules tokens).2 ⟨token, htoken, hrule⟩)
  rw [h] at hplaced
  exact Sheet.not_holds_empty _ _ _ _ hplaced

theorem component?_eq_none_of_compile_eq_empty (h : compiler.compile tokens = ∅) :
    ∀ token ∈ tokens, compiler.component? token = none := by
  intro token htoken
  rw [Option.eq_none_iff_forall_ne_some]
  intro name hname
  obtain ⟨css, hcss⟩ := Library.exists_get?_of_matchBase? hname
  have hmem : name ∈ compiler.componentNames tokens :=
    mem_distinct.2 (List.mem_filterMap.2 ⟨token, mem_distinct.2 htoken, hname⟩)
  have hnone : (compiler.componentNames tokens).filterMap compiler.library.get? = [] :=
    congrArg Sheet.components h
  rw [List.filterMap_eq_nil_iff.1 hnone name hmem] at hcss
  cases hcss

/-- **The sheet of a page is empty exactly if no token counts.** -/
theorem compile_isEmpty_iff :
    (compiler.compile tokens).isEmpty = true ↔ compiler.essential tokens = [] := by
  rw [Sheet.isEmpty_iff, essential_eq_nil_iff]
  constructor
  · exact fun h token htoken => ⟨compiler.resolve?_eq_none_of_compile_eq_empty tokens h token htoken,
      compiler.component?_eq_none_of_compile_eq_empty tokens h token htoken⟩
  · intro h
    have hnone : compiler.essential tokens = [] := (compiler.essential_eq_nil_iff tokens).2 h
    rw [← compile_essential, hnone]
    rfl

/-- **Only the tokens that count show on a page.** Leaving out all repetitions of a token and all tokens that have
no rule and ask for no component changes neither the sheet nor its text; the sheet is empty exactly if its text
is, and exactly if no token is left. -/
theorem only_essential_tokens_show :
    compiler.compile (compiler.essential tokens) = compiler.compile tokens ∧
    (compiler.compile (compiler.essential tokens)).renderBody = (compiler.compile tokens).renderBody ∧
    ((compiler.compile tokens).isEmpty = true ↔ (compiler.compile tokens).renderBody = "") ∧
    ((compiler.compile tokens).renderBody = "" ↔ compiler.essential tokens = []) := by
  have hsame := compiler.compile_essential tokens
  refine ⟨hsame, by rw [hsame], Sheet.renderBody_eq_empty_iff.symm, ?_⟩
  rw [Sheet.renderBody_eq_empty_iff]
  exact compiler.compile_isEmpty_iff tokens

end Compiler

end AtomicCss
