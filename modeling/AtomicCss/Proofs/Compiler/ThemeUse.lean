import AtomicCss.Stylesheet

/-!
# What a stylesheet shows of the theme

A theme holds hundreds of values, but the utilities of a page refer to them by name, as custom properties.
This module says what is left to see: the widths of breakpoints and containers, which stand in queries, and
the names of the colors. Two themes that agree on these cannot be told apart by any page, whatever their
values, their other categories and the order of their entries.

## The architecture

* **`Theme.LooksLike`** — the agreement of two themes.
* **`Variant.parse?_eq_of_looksLike`** — a variant asks a theme for breakpoints and containers only.
* **`Compiler.themeColor?_eq_of_looksLike`** — a color utility asks for the name of its color only.
* **`Compiler.themes_show_widths_and_color_names`** — tokens, sheets and stylesheets.
-/

namespace AtomicCss

/-! ## Agreement -/

/-- A theme has the breakpoints, the containers and the names of colors of another. -/
structure Theme.LooksLike (theme theme' : Theme) : Prop where
  breakpoint : ∀ name, theme.breakpoint? name = theme'.breakpoint? name
  container : ∀ name, theme.container? name = theme'.container? name
  /-- The colors have the same names, in any order. -/
  color : ∀ name, name ∈ theme.colors.keys ↔ name ∈ theme'.colors.keys

/-- A map contains its keys. -/
theorem OrderedMap.contains_iff_mem_keys {ν : Type} {m : OrderedMap String ν} {key : String} :
    m.contains key = true ↔ key ∈ m.keys := by
  simp [OrderedMap.contains, OrderedMap.keys]

variable {theme theme' : Theme}

theorem Theme.LooksLike.contains_color (h : theme.LooksLike theme') (name : String) :
    theme.colors.contains name = theme'.colors.contains name := by
  rw [Bool.eq_iff_iff, OrderedMap.contains_iff_mem_keys, OrderedMap.contains_iff_mem_keys]
  exact h.color name

/-! ## Variants -/

namespace Variant

theorem not?_eq_of_looksLike (h : theme.LooksLike theme') (variant : String) :
    not? theme variant = not? theme' variant := by
  unfold not?
  rw [h.breakpoint]

theorem max?_eq_of_looksLike (h : theme.LooksLike theme') (variant : String) :
    max? theme variant = max? theme' variant := by
  unfold max?
  rw [h.breakpoint]

theorem containerQuery?_eq_of_looksLike (h : theme.LooksLike theme') (size : String) :
    containerQuery? theme size = containerQuery? theme' size := by
  unfold containerQuery?
  simp only [h.container]

theorem stemmed?_eq_of_looksLike (h : theme.LooksLike theme') (variant : String) :
    stemmed? theme variant = stemmed? theme' variant := by
  unfold stemmed?
  simp only [not?_eq_of_looksLike h, max?_eq_of_looksLike h, containerQuery?_eq_of_looksLike h, h.breakpoint]

/-- **A variant asks a theme for breakpoints and containers**, and for nothing else. -/
theorem parse?_eq_of_looksLike (h : theme.LooksLike theme') : parse? theme = parse? theme' := by
  funext variant
  unfold parse?
  rw [stemmed?_eq_of_looksLike h]

end Variant

theorem Selector.build?_eq_of_looksLike (h : theme.LooksLike theme') (token : String)
    (variants : List String) (suffix : Option String) :
    build? theme token variants suffix = build? theme' token variants suffix := by
  rw [build?, build?, Variant.parse?_eq_of_looksLike h]

/-! ## Utilities and rules -/

namespace Compiler

/-- **A color utility asks a theme for the name of its color**: the value is referred to and not copied. -/
theorem themeColor?_eq_of_looksLike (h : theme.LooksLike theme') (base : String) :
    themeColor? theme base = themeColor? theme' base := by
  unfold themeColor?
  simp only [h.contains_color]

variable (catalog : Catalog) (library : Library)

theorem utility?_eq_of_looksLike (h : theme.LooksLike theme') (base : String) :
    (⟨catalog, theme, library⟩ : Compiler).utility? base =
      (⟨catalog, theme', library⟩ : Compiler).utility? base := by
  unfold utility?
  rw [themeColor?_eq_of_looksLike h]

theorem resolve?_eq_of_looksLike (h : theme.LooksLike theme') :
    (⟨catalog, theme, library⟩ : Compiler).resolve? =
      (⟨catalog, theme', library⟩ : Compiler).resolve? := by
  funext token
  unfold resolve?
  simp only [utility?_eq_of_looksLike catalog library h, Selector.build?_eq_of_looksLike h]

/-- Components do not depend on the theme, so a sheet shows of it what its rules show. -/
theorem compile_eq_of_looksLike (h : theme.LooksLike theme') :
    (⟨catalog, theme, library⟩ : Compiler).compile =
      (⟨catalog, theme', library⟩ : Compiler).compile := by
  funext tokens
  unfold compile rules
  rw [resolve?_eq_of_looksLike catalog library h]
  rfl

/-- **Of a theme, stylesheets show the widths of breakpoints and containers and the names of colors.** If two
themes agree on these, then with every catalog and every library they give the same rule for every token,
the same sheet for every list of tokens, and the same stylesheet for every page. -/
theorem themes_show_widths_and_color_names (h : theme.LooksLike theme') :
    (∀ token, (⟨catalog, theme, library⟩ : Compiler).resolve? token =
      (⟨catalog, theme', library⟩ : Compiler).resolve? token) ∧
    (∀ tokens, (⟨catalog, theme, library⟩ : Compiler).compile tokens =
      (⟨catalog, theme', library⟩ : Compiler).compile tokens) ∧
    ∀ source, (⟨catalog, theme, library⟩ : Compiler).stylesheet source =
      (⟨catalog, theme', library⟩ : Compiler).stylesheet source := by
  refine ⟨fun token => ?_, fun tokens => ?_, fun source => ?_⟩
  · rw [resolve?_eq_of_looksLike catalog library h]
  · rw [compile_eq_of_looksLike catalog library h]
  · rw [stylesheet, stylesheet, pageBody, pageBody, compile_eq_of_looksLike catalog library h]

/-- Two themes with the same two colors in another order and of other values. One of them names the default
width of a breakpoint, the other sets a radius and a spacing unit. -/
theorem ink_and_paper_look_alike :
    let day : Theme :=
      { colors := OrderedMap.ofList [("ink", "#111111"), ("paper", "#eeeeee")]
        breakpoints := OrderedMap.ofList [("sm", "40rem")] }
    let night : Theme :=
      { colors := OrderedMap.ofList [("paper", "#222222"), ("ink", "#dddddd")]
        radius := OrderedMap.ofList [("lg", "9rem")]
        spacing := some "1px" }
    day.LooksLike night ∧
      (⟨Catalog.standard, day, ∅⟩ : Compiler).stylesheet (.classes ["sm:text-ink/50 rounded-lg"]) =
        (⟨Catalog.standard, night, ∅⟩ : Compiler).stylesheet (.classes ["sm:text-ink/50 rounded-lg"]) := by
  intro day night
  have hlooks : day.LooksLike night := by
    refine ⟨fun name => ?_, fun name => rfl, fun name => ?_⟩
    · -- the width that one theme names is the default one, which the other leaves in place
      by_cases hname : name = "sm"
      · subst hname
        decide
      · have hown : day.breakpoints.get? name = none := by
          show (OrderedMap.get? (OrderedMap.alter ∅ "sm" fun _ => "40rem") name) = none
          rw [OrderedMap.get?_alter, if_neg hname]
          rfl
        rw [Theme.breakpoint?, Theme.breakpoint?, hown]
        rfl
    · have hday : day.colors.keys = ["ink", "paper"] := by decide
      have hnight : night.colors.keys = ["paper", "ink"] := by decide
      rw [hday, hnight]
      simp [or_comm]
  exact ⟨hlooks, (themes_show_widths_and_color_names Catalog.standard ∅ hlooks).2.2 _⟩

end Compiler

end AtomicCss
