import AtomicCss.Proofs.Catalog.Containment
import AtomicCss.Proofs.Compiler.Resolution
import AtomicCss.Proofs.Selector.Containment
import AtomicCss.Proofs.Sheet.Braces

/-!
# What can get out of a rule

Everything that a class token puts into a rule is checked or escaped, with one exception: the text of a
variant. A token such as `[&\x7b]:flex` has a rule whose selector ends in an open brace. This module says
that the variants are the *only* way out: the base utility, the token itself, the theme and the catalog
contribute nothing, so a rule is contained exactly if its variants are. Rules that are contained make a sheet
with balanced braces.

## The architecture

* **`Rule.IsContained`** — no delimiter takes effect in the head of the rule.
* **`isContained_of_utility?`** — the body of a rule stays inside: the catalog, the dynamic utilities and the
  colors of the theme together.
* **`rules_leak_only_through_variants`** — the exact condition, for every token and every list of tokens.
* **`opening_brace_gets_out`** — a token that meets it not.
-/

namespace AtomicCss

open Text (breaksOut leaks)

/-! ## Rules -/

/-- No delimiter can take effect in the head of the rule: ignoring characters behind a backslash, its
selector has none, and its queries have none at all. -/
def Rule.IsContained (rule : Rule) : Prop :=
  rule.head.IsContained

namespace Compiler

variable {compiler : Compiler} {token : String} {rule : Rule}

/-! ## Bodies -/

/-- **Every utility stays inside**, whether it is listed, dynamic, or a color of the theme. -/
theorem isContained_of_utility? (hcatalog : compiler.catalog = Catalog.standard)
    (hvalid : compiler.theme.validate = .ok ()) {base : String} {utility : Utility}
    (h : compiler.utility? base = some utility) : utility.IsContained := by
  -- the catalog is asked first, then the dynamic utilities, then the theme
  rcases Option.or_eq_some_iff.1 h with hlisted | ⟨-, h⟩
  · rw [hcatalog] at hlisted
    exact Catalog.isContained_of_search hlisted
  · obtain ⟨declarations, hdeclarations, rfl⟩ := Option.map_eq_some_iff.1 h
    refine ⟨?_, rfl⟩
    rcases Option.or_eq_some_iff.1 hdeclarations with hdynamic | ⟨-, htheme⟩
    · exact Dynamic.isContained_of_resolve? hdynamic
    · exact isContained_of_themeColor? hvalid htheme

theorem isContained_declarationsOf {utility : Utility} (h : utility.IsContained) (important : Bool) :
    ∀ d ∈ declarationsOf utility important, d.IsContained := by
  intro d hd
  unfold declarationsOf at hd
  split at hd
  · obtain ⟨plain, hplain, rfl⟩ := List.mem_map.1 hd
    exact Declaration.isContained_important (h.declarations plain hplain)
  · exact h.declarations d hd

/-- A rule that is contained lets nothing out: its body is settled in any case. -/
theorem isSettled_of_isContained (hcatalog : compiler.catalog = Catalog.standard)
    (hvalid : compiler.theme.validate = .ok ()) (h : compiler.resolve? token = some rule)
    (hrule : rule.IsContained) : rule.IsSettled := by
  obtain ⟨base, important, utility, -, hutility, -, hdeclarations⟩ := resolve?_eq_some h
  have hcontained := isContained_of_utility? hcatalog hvalid hutility
  obtain ⟨hselector, hmedia, hcontainer⟩ := Selector.isContained_iff.1 hrule
  refine ⟨hselector, hmedia, hcontainer, settled_renderBody ?_⟩
  rw [hdeclarations]
  exact isContained_declarationsOf hcontained important

/-! ## Heads -/

/-- Whether a rule is contained is up to its variants. -/
theorem isContained_iff_variants (hcatalog : compiler.catalog = Catalog.standard)
    (hvalid : compiler.theme.validate = .ok ()) (h : compiler.resolve? token = some rule) :
    ∃ outline, Selector.build? compiler.theme "" (Token.parse token).variants none = some outline ∧
      (rule.IsContained ↔ outline.IsContained) := by
  obtain ⟨base, important, utility, -, hutility, hhead, -⟩ := resolve?_eq_some h
  exact Selector.isContained_build?_iff hhead (isContained_of_utility? hcatalog hvalid hutility).suffix

/-! ## The way out -/

theorem validate_empty : Theme.empty.validate = .ok () := rfl

/-- **A rule can be broken out of through its variants, and in no other way.** With the standard catalog and a
checked theme, take any token that has a rule. The rule is contained exactly if the selector is that its
variants make of a class without a name, which they do if none of them holds a semicolon or a brace. If the
variants leave no backslash open, the selector exposes a delimiter exactly if one of them brings it in. And if
the rules of a list of tokens are contained, then the braces of the rendered utilities that are not behind a
backslash are balanced. -/
theorem rules_leak_only_through_variants (compiler : Compiler)
    (hcatalog : compiler.catalog = Catalog.standard) (hvalid : compiler.theme.validate = .ok ()) :
    (∀ token rule, compiler.resolve? token = some rule →
      (∃ outline, Selector.build? compiler.theme "" (Token.parse token).variants none = some outline ∧
        (rule.IsContained ↔ outline.IsContained)) ∧
      ((∀ variant ∈ (Token.parse token).variants, breaksOut variant = false) → rule.IsContained) ∧
      ((∀ variant ∈ (Token.parse token).variants, ∀ effect,
          Variant.parse? compiler.theme variant = some effect → effect.IsComplete) →
        ((∀ c ∈ Text.exposed false rule.selector.toList, Text.isDelimiter c = false) ↔
          ∀ variant ∈ (Token.parse token).variants, ∀ effect,
            Variant.parse? compiler.theme variant = some effect → effect.IsTight))) ∧
    (∀ tokens, (∀ token ∈ tokens, ∀ rule, compiler.resolve? token = some rule → rule.IsContained) →
      Text.closes '\x7b' '\x7d' 0
        (Text.exposed false (compiler.compile tokens).renderUtilities.toList) = true) := by
  refine ⟨fun token rule h => ?_, fun tokens h => ?_⟩
  · obtain ⟨outline, houtline, hiff⟩ := isContained_iff_variants hcatalog hvalid h
    refine ⟨⟨outline, houtline, hiff⟩, fun hvariants => hiff.2 ?_, fun hcomplete => ?_⟩
    · exact Selector.isContained_of_variants hvalid houtline hvariants
    · obtain ⟨base, important, utility, -, hutility, hhead, -⟩ := resolve?_eq_some h
      have hsuffix := (isContained_of_utility? hcatalog hvalid hutility).suffix
      exact Text.tight_iff.symm.trans (Selector.tight_build?_iff hhead hsuffix hcomplete)
  · have hrules : ∀ rule ∈ compiler.rules tokens, rule.IsSettled := by
      intro rule hrule
      obtain ⟨token, htoken, hresolved⟩ := List.mem_filterMap.1 hrule
      exact isSettled_of_isContained hcatalog hvalid hresolved
        (h token (mem_distinct.1 htoken) rule hresolved)
    -- the components of a sheet do not show in its utilities
    exact (Sheet.settled_renderUtilities (Sheet.isContained_ofRules hrules)).closes

/-- An authored state without a delimiter lets nothing out. -/
theorem authored_state_stays_inside :
    Theme.empty.validate = .ok () ∧
    ∃ rule, (⟨Catalog.standard, Theme.empty, ∅⟩ : Compiler).resolve? "[&:hover]:flex" = some rule ∧
      rule.IsContained := by
  have hcatalog : (⟨Catalog.standard, Theme.empty, ∅⟩ : Compiler).catalog = Catalog.standard := by
    dsimp only
  have hparse : Token.parse "[&:hover]:flex" = ⟨["[&:hover]"], "flex"⟩ := by decide
  have heffect : Variant.parse? Theme.empty "[&:hover]" = some (.template ["", ":hover"]) := by decide
  obtain ⟨rule, hrule⟩ := exists_resolve?_flex hcatalog hparse heffect
  refine ⟨validate_empty, rule, hrule, ?_⟩
  refine ((rules_leak_only_through_variants _ hcatalog validate_empty).1 _ rule hrule).2.1 ?_
  rw [hparse]
  decide

/-- **An opening brace gets out through a variant.** The token `[&\x7b]:flex` has a rule with the standard
catalog and a theme that passes its check, but the rule is not contained: its selector ends in an open
brace. -/
theorem opening_brace_gets_out :
    Theme.empty.validate = .ok () ∧
    ∃ rule, (⟨Catalog.standard, Theme.empty, ∅⟩ : Compiler).resolve? "[&\x7b]:flex" = some rule ∧
      ¬ rule.IsContained := by
  have hcatalog : (⟨Catalog.standard, Theme.empty, ∅⟩ : Compiler).catalog = Catalog.standard := by
    dsimp only
  have hparse : Token.parse "[&\x7b]:flex" = ⟨["[&\x7b]"], "flex"⟩ := by decide
  have heffect : Variant.parse? Theme.empty "[&\x7b]" = some (.template ["", "\x7b"]) := by decide
  obtain ⟨rule, hrule⟩ := exists_resolve?_flex hcatalog hparse heffect
  refine ⟨validate_empty, rule, hrule, fun hcontained => ?_⟩
  -- the variant alone makes a selector that ends in an open brace
  obtain ⟨outline, houtline, hiff⟩ := isContained_iff_variants hcatalog validate_empty hrule
  have hbrace : Selector.build? Theme.empty "" ["[&\x7b]"] none = some ⟨".\x7b", none, none⟩ := by decide
  rw [hparse] at houtline
  obtain rfl := Option.some.inj (houtline.symm.trans hbrace)
  exact absurd ((hiff.1 hcontained).exposed '\x7b' (by decide)) (by decide)

end Compiler

end AtomicCss
