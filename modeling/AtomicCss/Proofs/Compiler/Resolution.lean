import AtomicCss.Proofs.Catalog.Entries
import AtomicCss.Proofs.Trie.Refinement
import AtomicCss.Stylesheet
import Mathlib.Data.List.Forall2

/-!
# What it takes for a token to have a rule

A token has a rule if its base is a utility and its variants make a selector, and the rule is put together
from the two.

* **`Compiler.resolve?_eq_some`** — the parts of a rule.
* **`Compiler.resolve?_of_utility`** — a utility and a selector are all it takes.
* **`Compiler.resolve?_flex_of_mapM`** — the rule of `flex` behind any variants that have effects: its queries are
  theirs.
* **`Compiler.compile_eq_ofRules`** — the sheet of tokens whose rules are known.
-/

namespace AtomicCss

/-- The selector of a rule and the queries around it. -/
def Rule.head (rule : Rule) : Selector :=
  ⟨rule.selector, rule.media, rule.container⟩

namespace Compiler

variable {compiler : Compiler} {token : String} {rule : Rule}

/-- A token has a rule if its base is a utility and its variants make a selector. -/
theorem resolve?_eq_some (h : compiler.resolve? token = some rule) :
    ∃ base important utility, stripImportant (Token.parse token).base = (base, important) ∧
      compiler.utility? base = some utility ∧
      Selector.build? compiler.theme token (Token.parse token).variants utility.suffix = some rule.head ∧
      rule.declarations = declarationsOf utility important := by
  unfold resolve? at h
  dsimp only at h
  split at h
  · cases h
  · obtain ⟨utility, hutility, h⟩ := Option.bind_eq_some_iff.1 h
    obtain ⟨head, hhead, h⟩ := Option.bind_eq_some_iff.1 h
    cases h
    exact ⟨_, _, utility, Prod.mk.eta.symm, hutility, hhead, rfl⟩

/-- A utility and a selector are all it takes. -/
theorem resolve?_of_utility {base : String} {important : Bool} {utility : Utility} {head : Selector}
    (hbase : stripImportant (Token.parse token).base = (base, important)) (hne : base.isEmpty = false)
    (hutility : compiler.utility? base = some utility)
    (hhead : Selector.build? compiler.theme token (Token.parse token).variants utility.suffix =
      some head) :
    compiler.resolve? token = some
      { selector := head.selector
        declarations := declarationsOf utility important
        media := head.media
        container := head.container
        keyframes := utility.keyframes } := by
  unfold resolve?
  dsimp only
  rw [hbase]
  dsimp only
  rw [hne, hutility]
  dsimp only [Option.bind_eq_bind, Option.bind_some]
  rw [hhead]
  rfl

/-! ## A utility of the catalog -/

theorem catalog_standard : standard.catalog = Catalog.standard := by
  dsimp only [standard]

theorem listed_flex : (Catalog.listed.all fun e =>
    e.1 != "flex" || e.2 == { declarations := [.property "display" "flex"] }) = true := by
  decide +kernel

/-- No family lists `flex` once more. -/
theorem search_flex :
    Catalog.standard.search "flex" = some { declarations := [.property "display" "flex"] } := by
  have hsome : (Catalog.standard.search "flex").isSome := by
    refine (Trie.isSome_search_ofList _ _).2 ?_
    refine List.mem_map.2 ⟨Catalog.entry "flex" [("display", "flex")], ?_, rfl⟩
    unfold Catalog.entries Catalog.Layout.entries
    repeat apply List.mem_append_left
    have hflex : ("flex", "flex") ∈ Catalog.Layout.display := by decide
    exact List.mem_map.2 ⟨("flex", "flex"), hflex, rfl⟩
  obtain ⟨utility, hutility⟩ := Option.isSome_iff_exists.1 hsome
  have hdash : '-' ∉ "flex".toList := by decide
  have hlisted := Catalog.mem_listed_of_dash_not_mem (Trie.mem_of_search_ofList hutility) hdash
  have hpass := List.all_eq_true.1 listed_flex _ hlisted
  simp only [bne_self_eq_false, Bool.false_or, beq_iff_eq] at hpass
  rw [hutility, hpass]

/-- **Behind variants that have effects, `flex` has a rule**, and the queries around it are those that the
effects set. -/
theorem resolve?_flex_of_mapM {variants : List String} {effects : List Variant}
    (hcatalog : compiler.catalog = Catalog.standard) (hparse : Token.parse token = ⟨variants, "flex"⟩)
    (heffects : variants.mapM (Variant.parse? compiler.theme) = some effects) :
    compiler.resolve? token = some
      { selector := ((effects.foldl Draft.apply (.ofToken token)).finish none).selector
        declarations := [.property "display" "flex"]
        media := (effects.foldl Draft.apply (.ofToken token)).media
        container := (effects.foldl Draft.apply (.ofToken token)).container
        keyframes := none } := by
  have hutility : compiler.utility? "flex" = some { declarations := [.property "display" "flex"] } := by
    rw [utility?, hcatalog, search_flex]
    rfl
  have hbase : stripImportant (Token.parse token).base = ("flex", false) := by
    have hplain : stripImportant "flex" = ("flex", false) := by decide
    rw [hparse, hplain]
  refine resolve?_of_utility hbase (by decide) hutility ?_
  rw [hparse, Selector.build?, heffects]
  rfl

/-- Behind any variant that has an effect, `flex` has a rule. -/
theorem exists_resolve?_flex {variant : String} {effect : Variant}
    (hcatalog : compiler.catalog = Catalog.standard) (hparse : Token.parse token = ⟨[variant], "flex"⟩)
    (heffect : Variant.parse? compiler.theme variant = some effect) :
    ∃ rule, compiler.resolve? token = some rule := by
  have heffects : [variant].mapM (Variant.parse? compiler.theme) = some [effect] := by
    rw [List.mapM_cons, heffect]
    rfl
  exact ⟨_, resolve?_flex_of_mapM hcatalog hparse heffects⟩

theorem filterMap_of_forall₂ {α β : Type} {f : α → Option β} {l : List α} {l' : List β}
    (h : List.Forall₂ (fun a b => f a = some b) l l') : l.filterMap f = l' := by
  induction h with
  | nil => rfl
  | cons hhead _ ih => rw [List.filterMap_cons_some hhead, ih]

/-- **Distinct tokens without components make the sheet of their rules.** -/
theorem compile_eq_ofRules {tokens : List String} {rules : List Rule} (hdistinct : distinct tokens = tokens)
    (hrules : List.Forall₂ (fun token rule => compiler.resolve? token = some rule) tokens rules)
    (hnames : compiler.componentNames tokens = []) :
    compiler.compile tokens = { Sheet.ofRules rules with components := [] } := by
  have hfound : compiler.rules tokens = rules := by
    rw [Compiler.rules, hdistinct, filterMap_of_forall₂ hrules]
  rw [compile, hfound, hnames]
  rfl

end Compiler

end AtomicCss
