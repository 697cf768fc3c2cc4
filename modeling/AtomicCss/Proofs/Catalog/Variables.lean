import AtomicCss.Proofs.Catalog.Names
import AtomicCss.Proofs.Dynamic.Variables

/-!
# Custom properties that utilities share

A utility may refer to a custom property that another one sets, as the gradients do and the rings. Then it has to have a
fallback for the case that nobody has set it, since the declaration is lost otherwise. All utilities of the catalog and
all numbers do, or set the custom property by themselves, but for the scalings along one axis.

The families that are lists are swept. In the others the value is a step, a color or a word.

## The architecture

* **`listed_leaves`** — the families that are lists, one sweep over all entries.
* **`unset_of_mem_spacing`**, **`unset_of_mem_color`** — the families that are combinations.
* **`unset_of_mem_entries`** — what an entry of the catalog leaves unset.
* **`only_one_axis_is_unset`** — the catalog and the numbers together.
-/

namespace AtomicCss.Catalog

open AtomicCss.Dynamic (signText otherAxis otherAxisIn)

/-! ## Families that are lists -/

/-- Whether an entry leaves unset what its name says, told from the bytes. -/
def leavesOtherAxis (e : Entry) : Bool :=
  asciiUnset e.2.declarations == otherAxisIn (asciiChars e.1)

theorem listed_leaves : listed.all leavesOtherAxis = true := by decide +kernel

/-- The names of the lists are known to be ASCII, and so are their values. -/
theorem unset_of_mem_listed {e : Entry} (he : e ∈ listed) : unset e.2.declarations = otherAxis e.1 := by
  have hname : Text.asciiAll isNameLetter e.1 = true :=
    List.all_eq_true.1 nameParts_pass e.1 (by simp [nameParts, List.mem_map_of_mem he])
  have hpasses := List.all_eq_true.1 listed_pass e he
  rw [Utility.passes, Bool.and_eq_true] at hpasses
  have hvalues : ∀ p ∈ settings e.2.declarations, Text.isAsciiClean p.2 = true := by
    intro p hp
    obtain ⟨d, hd, hp⟩ := List.mem_flatMap.1 hp
    have hpass := List.all_eq_true.1 hpasses.1 d hd
    cases d with
    | property name value =>
      obtain rfl := List.mem_singleton.1 hp
      exact (Bool.and_eq_true_iff.1 hpass).2
    | supports condition properties => cases hpass
  rw [unset_eq_asciiUnset hvalues, beq_iff_eq.1 (List.all_eq_true.1 listed_leaves e he), otherAxis,
    toList_eq_asciiChars hname]

/-! ## Combinations -/

/-- The values of the spacing utilities do not have the letter that a reference needs. -/
theorem spacing_values_pass : (∀ step ∈ Spacing.steps, 'w' ∉ step.toList) ∧
    ∀ row ∈ Spacing.words, 'w' ∉ row.2.toList := by
  decide

theorem otherAxis_member {family : String}
    (h : (Dynamic.otherAxes.all fun row => Text.apart row.1 (family ++ "-")) = true) (name : String) :
    otherAxis (member family name) = [] :=
  Dynamic.otherAxis_of_apart h name

theorem otherAxis_signed_member {family : Spacing.Family} (h : family ∈ Spacing.families) (negative : Bool)
    (name : String) : otherAxis (signText negative ++ member family.name name) = [] := by
  have hfamily := List.all_eq_true.1 Dynamic.stepFamilies_apart _ (Dynamic.mem_stepFamilies_of_spacing h)
  rw [Dynamic.otherAxis_signed, otherAxis_member hfamily, ite_self]

theorem unset_of_mem_spacing {e : Entry} (he : e ∈ Spacing.entries) : unset e.2.declarations = otherAxis e.1 := by
  cases Spacing.lists_of_mem he with
  | @step family hfamily negative hsign step hstep =>
    have hletter : 'w' ∉ (signText negative ++ step).toList := by
      simp [Dynamic.not_mem_of_signText, spacing_values_pass.1 step hstep]
    exact (unset_each _ (Dynamic.references_spacingValue hletter)).trans (otherAxis_signed_member hfamily negative _).symm
  | @word family hfamily negative row hrow =>
    have hletter : 'w' ∉ (signText negative ++ row.2).toList := by
      simp [Dynamic.not_mem_of_signText, spacing_values_pass.2 row hrow]
    exact (unset_each _ (references_eq_nil (by decide) hletter)).trans (otherAxis_signed_member hfamily negative _).symm
  | @between axis property hrow step hstep =>
    have hvalue : references (if step = "px" then "1px" else spacingValue step) = [] := by
      split
      · exact references_eq_nil (c := 'w') (by decide) (by decide)
      · rename_i hpixel
        have hmem : step ∈ Spacing.steps := by simpa [hpixel] using hstep
        exact Dynamic.references_spacingValue (spacing_values_pass.1 step hmem)
    exact (unset_each [property] hvalue).trans (otherAxis_member (by decide) _).symm

/-- A reference to the theme is none to what utilities set, whatever the name is. -/
theorem references_reference {name : String} (h : '(' ∉ name.toList) : references (Palette.reference name) = [] := by
  have hsplit : (Palette.reference name).toList = 'v' :: ("ar(--color-" ++ (name ++ ")")).toList := by
    simp [Palette.reference]
  have hnone : referenceAt? ('v' :: ("ar(--color-" ++ (name ++ ")")).toList) = none := by
    rw [Option.eq_none_iff_forall_ne_some]
    intro other hother
    obtain ⟨-, back, hback⟩ := referenceAt?_eq_some_iff.1 hother
    simp at hback
  have hrest : references (name ++ ")") = [] := references_eq_nil (c := '(') (by decide) (by simp [h])
  rw [references, hsplit, referencesIn, hnone]
  exact (references_append (by decide)).trans hrest

theorem keywords_pass : ∀ row ∈ Palette.keywords, 'w' ∉ row.2.toList := by
  decide

/-- A color refers to the theme, if to anything. -/
theorem references_of_palette? {name value : String} (h : Palette.resolve? name = some value) :
    references value = [] := by
  rcases Dynamic.palette?_cases h with hkeyword | rfl
  · exact references_eq_nil (by decide) (keywords_pass _ hkeyword)
  · exact references_reference (Text.not_mem_of_isIdentifier (Dynamic.isIdentifier_of_palette? h) (by decide))

theorem colorFamilies_apart : (ColorFamily.table.all fun row =>
    Dynamic.otherAxes.all fun axis => Text.apart axis.1 (row.1 ++ "-")) = true := by
  decide

theorem unset_of_mem_color {e : Entry} (he : e ∈ Color.entries) : unset e.2.declarations = otherAxis e.1 := by
  obtain ⟨row, hrow, he⟩ := List.mem_flatMap.1 he
  obtain ⟨color, hcolor, rfl⟩ := List.mem_map.1 he
  obtain ⟨name, -, hnamed⟩ := List.mem_filterMap.1 hcolor
  obtain ⟨value, hvalue, rfl⟩ := Option.map_eq_some_iff.1 hnamed
  exact (unset_each _ (references_of_palette? hvalue)).trans
    (otherAxis_member (List.all_eq_true.1 colorFamilies_apart row hrow) _).symm

/-! ## The catalog and the numbers -/

/-- **What an entry of the catalog leaves unset**: the other axis, if it scales along one, and else nothing. -/
theorem unset_of_mem_entries {e : Entry} (he : e ∈ entries) : unset e.2.declarations = otherAxis e.1 := by
  rcases mem_entries_iff.1 he with he | he | he
  · exact unset_of_mem_listed he
  · exact unset_of_mem_spacing he
  · exact unset_of_mem_color he

/-- **Only the scalings along one axis depend on what others set.** Take the declarations of a utility that the catalog
has or that is read as a number. A reference `var(--tw-name)` without a fallback in one of their values, whose custom
property they do not set, is the one to the scale along the other axis in a utility that scales along one. -/
theorem only_one_axis_is_unset {base : String} {declarations : List Declaration}
    (h : (∃ utility, standard.search base = some utility ∧ declarations = utility.declarations) ∨
      Dynamic.numeric? base = some declarations) (name : String) :
    IsUnset declarations name ↔
      (Text.startsWith "scale-x-" base = true ∧ name = "scale-y") ∨
        (Text.startsWith "scale-y-" base = true ∧ name = "scale-x") := by
  have hunset : unset declarations = otherAxis base := by
    rcases h with ⟨utility, hutility, rfl⟩ | hnumeric
    · exact unset_of_mem_entries (e := (base, utility)) (Trie.mem_of_search_ofList hutility)
    · exact Dynamic.unset_of_numeric? hnumeric
  rw [← mem_unset_iff, hunset, Dynamic.mem_otherAxis_iff]

/-- A scaling along both axes refers to both and sets both. -/
theorem both_axes_are_set : ∃ declarations, Dynamic.numeric? "scale-33.5" = some declarations ∧
    (∃ p ∈ settings declarations, RefersTo p.2 "scale-x") ∧ ∀ name, ¬ IsUnset declarations name := by
  have hread : Dynamic.numeric? "scale-33.5" = some [.property "--tw-scale-x" "33.5%", .property "--tw-scale-y" "33.5%",
      .property "scale" "var(--tw-scale-x) var(--tw-scale-y)"] := by
    decide
  have hreference : RefersTo "var(--tw-scale-x) var(--tw-scale-y)" "scale-x" :=
    mem_references_iff.1 (by decide)
  refine ⟨_, hread, ⟨("scale", "var(--tw-scale-x) var(--tw-scale-y)"), by decide, hreference⟩, fun name hunset => ?_⟩
  rcases (only_one_axis_is_unset (.inr hread) name).1 hunset with ⟨hstart, -⟩ | ⟨hstart, -⟩
  · exact absurd hstart (by decide)
  · exact absurd hstart (by decide)

/-- **A scaling along one axis depends on the scale along the other**, for which it has neither a value nor a fallback,
whereas a translation along one axis does not move along the other. -/
theorem scale_along_x_needs_y :
    Dynamic.numeric? "scale-x-33" = some [.property "--tw-scale-x" "33%",
      .property "scale" "var(--tw-scale-x) var(--tw-scale-y)"] ∧
    Dynamic.numeric? "translate-x-1/3" = some [.property "--tw-translate-x" "calc(1/3 * 100%)",
      .property "translate" "var(--tw-translate-x, 0) var(--tw-translate-y, 0)"] ∧
    ¬ ∀ (base : String) (declarations : List Declaration),
      ((∃ utility, standard.search base = some utility ∧ declarations = utility.declarations) ∨
        Dynamic.numeric? base = some declarations) → ∀ name, ¬ IsUnset declarations name := by
  have hread : Dynamic.numeric? "scale-x-33" = some [.property "--tw-scale-x" "33%",
      .property "scale" "var(--tw-scale-x) var(--tw-scale-y)"] := by
    decide
  refine ⟨hread, by decide, fun hall => ?_⟩
  exact hall _ _ (.inr hread) "scale-y" (mem_unset_iff.1 (by decide))

end AtomicCss.Catalog
