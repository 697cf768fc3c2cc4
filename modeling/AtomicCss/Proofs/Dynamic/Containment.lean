import AtomicCss.Compiler
import AtomicCss.Proofs.Dynamic.Filling
import AtomicCss.Proofs.Text.Authored

/-!
# Dynamic utilities stay inside their declarations

A dynamic utility carries text that anyone may have written, and all of it is put into declarations. This
module follows each form of dynamic utility, and the colors of a theme, from the class name to the
declarations: names come from tables or are checked to be identifiers, and values are checked for delimiters
or made of parts that have none.

## The architecture

* **`Fills.isContained`** — a template of the tables stays inside for every value without delimiters;
  `allTemplates_pass` and its kin are the tables.
* **values** — each way to get a value: `breaksOut_of_arbitrary?`, `breaksOut_of_reference?`,
  `breaksOut_of_opacity?`, `breaksOut_of_spacingStep?`, `breaksOut_of_opaqueColor?`. A color of the palette
  is a name (`isIdentifier_of_palette?`).
* **`isContained_of_assign?`** — what a family does with a value.
* **`isContained_of_read?`** — the six forms, one lemma each.
* **`isContained_of_themeColor?`** — the colors of a checked theme.
* **`resolved_declarations_stay_inside`** — both together, said in characters.
-/

namespace AtomicCss

open Text (isIdentifier breaksOut isAsciiName isAsciiClean)

namespace Dynamic

/-! ## Templates -/

/-- Whether a slot names an identifier and its pieces hold no delimiter. -/
def Slot.passes (slot : Slot) : Bool :=
  isAsciiName slot.property && slot.pieces.all isAsciiClean

/-- Whether all slots of a template pass. -/
def Template.passes (template : Template) : Bool :=
  template.all Slot.passes

/-- **Filling a template** with a value without delimiters gives declarations that stay inside. -/
theorem Template.isContained_fill {template : Template} (h : template.passes) {value : String}
    (hvalue : breaksOut value = false) : ∀ d ∈ template.fill value, d.IsContained := by
  intro d hd
  obtain ⟨slot, hslot, rfl⟩ := List.mem_map.1 hd
  have hpasses := List.all_eq_true.1 h slot hslot
  rw [Slot.passes, Bool.and_eq_true] at hpasses
  refine Declaration.isContained_property.2 ⟨Text.isIdentifier_of_isAsciiName hpasses.1, ?_⟩
  refine Text.breaksOut_intercalate hvalue fun piece hpiece => ?_
  exact Text.breaksOut_of_isAsciiClean (List.all_eq_true.1 hpasses.2 piece hpiece)

/-! ## Tables

What the tables hold is checked in one sweep each: all templates, all properties outside of templates, and
all fixed texts that values are made of. -/

/-- The fixed parts of values. -/
def fixedTexts : List String :=
  ["", ")", ".", "-", "%", "/", " ", "ms", "deg", "px", "var(--", "var(--color-", "calc(", " * ", "100%)",
   " * -1)", "calc(var(--spacing) * ", "color-mix(in oklab, ", ", transparent)", colorMixSupport] ++
    Palette.keywords.map Prod.snd ++ Palette.named.map Prod.fst ++ Palette.families.map Prod.fst ++
    Palette.shades

theorem allTemplates_pass : allTemplates.all Template.passes := by decide +kernel

theorem fixedTexts_pass : fixedTexts.all isAsciiClean := by decide

theorem passes_of_mem {template : Template} (h : template ∈ allTemplates) : template.passes :=
  List.all_eq_true.1 allTemplates_pass template h

theorem breaksOut_of_mem {s : String} (h : s ∈ fixedTexts) : breaksOut s = false :=
  Text.breaksOut_of_isAsciiClean (List.all_eq_true.1 fixedTexts_pass s h)

/-- A listed template stays inside for every value without delimiters. -/
theorem Template.IsListed.isContained_fill {template : Template} (h : template.IsListed) {value : String}
    (hvalue : breaksOut value = false) : ∀ d ∈ template.fill value, d.IsContained := by
  rcases h with hmem | ⟨names, -, hnames, rfl⟩
  · exact Template.isContained_fill (passes_of_mem hmem) hvalue
  · rw [← each_eq_fill]
    exact Declaration.isContained_each hnames hvalue

theorem Fills.isContained {value : String} {declarations : List Declaration} (h : Fills value declarations)
    (hvalue : breaksOut value = false) : ∀ d ∈ declarations, d.IsContained := by
  obtain ⟨template, hlisted, rfl⟩ := h
  exact hlisted.isContained_fill hvalue

theorem isIdentifier_of_split? {base rest : String} {properties : List String}
    (h : ColorFamily.split? base = some (properties, rest)) :
    ∀ name ∈ properties, isIdentifier name = true := by
  obtain ⟨family, -, hmem⟩ := split?_eq_some h
  exact isIdentifier_of_mem_table hmem

/-! ## Values -/

/-- A value in brackets is checked, and decoding it adds nothing. -/
theorem breaksOut_of_arbitrary? {raw value : String} (h : arbitrary? raw = some value) :
    breaksOut value = false := by
  obtain ⟨-, hraw, -, rfl⟩ := arbitrary?_eq_some_iff.1 h
  unfold meaning
  split
  · exact hraw
  · rwa [Text.breaksOut_decodeSpaces]

theorem breaksOut_var {name : String} (h : isIdentifier name = true) :
    breaksOut ("var(--" ++ name ++ ")") = false := by
  have hopen : breaksOut "var(--" = false := breaksOut_of_mem (by simp [fixedTexts])
  have hclose : breaksOut ")" = false := breaksOut_of_mem (by simp [fixedTexts])
  rw [Text.breaksOut_append, Text.breaksOut_append, Text.not_breaksOut_of_isIdentifier h, hopen, hclose]
  rfl

/-- A reference holds an identifier. -/
theorem breaksOut_of_reference? {s value : String} (h : reference? s = some value) :
    breaksOut value = false := by
  obtain ⟨name, hname, -, rfl⟩ := reference?_eq_some_iff.1 h
  exact breaksOut_var hname

theorem breaksOut_hundredthsText (n : Nat) : breaksOut (hundredthsText n) = false := by
  have hdot : breaksOut "." = false := breaksOut_of_mem (by simp [fixedTexts])
  unfold hundredthsText
  split
  · simp
  · split
    · simp [hdot]
    · simp [hdot]

theorem breaksOut_signText (negative : Bool) : breaksOut (signText negative) = false := by
  cases negative <;> exact breaksOut_of_mem (by simp [signText, fixedTexts])

theorem breaksOut_of_fractionPercent? {fraction : Decimal} {value : String}
    (h : fractionPercent? fraction = some value) : breaksOut value = false := by
  have hsign := breaksOut_signText fraction.negative
  have hpercent : breaksOut "%" = false := breaksOut_of_mem (by simp [fixedTexts])
  obtain ⟨nearest, -, h⟩ := Option.bind_eq_some_iff.1 h
  split at h
  · cases h
  · obtain ⟨scaled, -, h⟩ := Option.bind_eq_some_iff.1 h
    cases h
    rw [signText] at hsign
    rw [Text.breaksOut_append, Text.breaksOut_append, hsign, breaksOut_hundredthsText, hpercent]
    rfl

theorem breaksOut_of_opacity? {modifier value : String} (h : opacity? modifier = some value) :
    breaksOut value = false := by
  have hpercent {number : String} (hnumber : isPlainNumeral number = true) : breaksOut (number ++ "%") = false := by
    rw [Text.breaksOut_append, Text.breaksOut_of_isPlainNumeral hnumber,
      breaksOut_of_mem (s := "%") (by simp [fixedTexts])]
    rfl
  rcases opacity?_cases h with ⟨hnumeral, rfl⟩ | ⟨number, hnumeral, -, rfl⟩ | ⟨inner, fraction, -, -, hfraction⟩ |
    hreference
  · exact hpercent hnumeral
  · exact hpercent hnumeral
  · exact breaksOut_of_fractionPercent? hfraction
  · exact breaksOut_of_reference? hreference

theorem breaksOut_of_splitOpacity? {value color percentage : String}
    (h : splitOpacity? value = some (color, percentage)) : breaksOut percentage = false := by
  obtain ⟨modifier, -, -, hmodifier⟩ := splitOpacity?_eq_some h
  exact breaksOut_of_opacity? hmodifier

/-- A mix of a color with an opacity is made of the two. -/
theorem breaksOut_colorMix {color percentage : String} (hcolor : breaksOut color = false)
    (hpercentage : breaksOut percentage = false) : breaksOut (colorMix color percentage) = false := by
  have hopen : breaksOut "color-mix(in oklab, " = false := breaksOut_of_mem (by simp [fixedTexts])
  have hspace : breaksOut " " = false := breaksOut_of_mem (by simp [fixedTexts])
  have hclose : breaksOut ", transparent)" = false := breaksOut_of_mem (by simp [fixedTexts])
  unfold colorMix
  simp [hopen, hcolor, hspace, hpercentage, hclose]

theorem breaksOut_negation {value : String} (h : breaksOut value = false) :
    breaksOut (negation value) = false := by
  have hopen : breaksOut "calc(" = false := breaksOut_of_mem (by simp [fixedTexts])
  have hclose : breaksOut " * -1)" = false := breaksOut_of_mem (by simp [fixedTexts])
  unfold negation
  simp [hopen, h, hclose]

theorem breaksOut_spacingValue {step : String} (h : breaksOut step = false) :
    breaksOut (Catalog.spacingValue step) = false := by
  have hopen : breaksOut "calc(var(--spacing) * " = false := breaksOut_of_mem (by simp [fixedTexts])
  have hclose : breaksOut ")" = false := breaksOut_of_mem (by simp [fixedTexts])
  unfold Catalog.spacingValue
  simp [hopen, h, hclose]

/-- The value of a step, a fraction or a multiple, holds no delimiter. -/
theorem breaksOut_of_spacingStep? {family step value : String} {negative : Bool}
    (h : spacingStep? family step negative = some value) : breaksOut value = false := by
  rcases spacingStep?_cases h with ⟨left, right, numerator, denominator, -, -, -, -, -, rfl⟩ | ⟨hstep, rfl⟩
  · have hopen : breaksOut "calc(" = false := breaksOut_of_mem (by simp [fixedTexts])
    have hslash : breaksOut "/" = false := breaksOut_of_mem (by simp [fixedTexts])
    have htimes : breaksOut " * " = false := breaksOut_of_mem (by simp [fixedTexts])
    have hclose : breaksOut "100%)" = false := breaksOut_of_mem (by simp [fixedTexts])
    simp [hopen, hslash, htimes, hclose, breaksOut_signText]
  · refine breaksOut_spacingValue ?_
    rw [Text.breaksOut_append, breaksOut_signText, Text.breaksOut_of_isPlainNumeral hstep]
    rfl

theorem breaksOut_reference {name : String} (h : breaksOut name = false) :
    breaksOut (Palette.reference name) = false := by
  have hopen : breaksOut "var(--color-" = false := breaksOut_of_mem (by simp [fixedTexts])
  have hclose : breaksOut ")" = false := breaksOut_of_mem (by simp [fixedTexts])
  unfold Palette.reference
  simp [hopen, h, hclose]

/-- The words that color names are made of. -/
def colorNames : List String :=
  Palette.keywords.map Prod.fst ++ Palette.named.map Prod.fst ++ Palette.families.map Prod.fst ++
    Palette.shades

theorem colorNames_pass : colorNames.all isAsciiName = true := by decide

theorem isIdentifier_of_mem_colorNames {name : String} (h : name ∈ colorNames) : isIdentifier name = true :=
  Text.isIdentifier_of_isAsciiName (List.all_eq_true.1 colorNames_pass _ h)

/-- A color of the palette has a name. -/
theorem isIdentifier_of_palette? {color value : String} (h : Palette.resolve? color = some value) :
    isIdentifier color = true := by
  unfold Palette.resolve? at h
  split at h
  · rename_i hkeyword
    have hmem := mem_map_fst_of_lookup hkeyword
    exact isIdentifier_of_mem_colorNames (by simp only [colorNames, List.mem_append, hmem, true_or])
  · split at h
    · rename_i hchecks
      rcases Bool.or_eq_true_iff.1 hchecks with hnamed | hshade
      · obtain ⟨entry, hentry, hname⟩ := List.any_eq_true.1 hnamed
        have hmem : color ∈ Palette.named.map Prod.fst := List.mem_map.2 ⟨entry, hentry, beq_iff_eq.1 hname⟩
        exact isIdentifier_of_mem_colorNames
          (by simp only [colorNames, List.mem_append, hmem, or_true, true_or])
      · unfold Palette.isShade at hshade
        split at hshade
        · rename_i family shade hcut
          obtain ⟨hfamily, hshade⟩ := Bool.and_eq_true_iff.1 hshade
          obtain ⟨entry, hentry, hname⟩ := List.any_eq_true.1 hfamily
          have hfamily : family ∈ Palette.families.map Prod.fst :=
            List.mem_map.2 ⟨entry, hentry, beq_iff_eq.1 hname⟩
          have hshade : shade ∈ Palette.shades := List.contains_iff_mem.1 hshade
          rw [Text.eq_append_of_cutLast? hcut]
          refine Text.isIdentifier_append (List.all_eq_true.2 ?_) (isIdentifier_of_mem_colorNames
            (by simp only [colorNames, List.mem_append, hshade, or_true]))
          rw [String.toList_append, String.toList_singleton]
          exact Text.all_isNameChar_dash (isIdentifier_of_mem_colorNames
            (by simp only [colorNames, List.mem_append, hfamily, or_true, true_or]))
        · cases hshade
    · cases h

/-- A color of the palette is a keyword with its value, or a reference to the theme. -/
theorem palette?_cases {color value : String} (h : Palette.resolve? color = some value) :
    (color, value) ∈ Palette.keywords ∨ value = Palette.reference color := by
  unfold Palette.resolve? at h
  split at h
  · rename_i keyword hkeyword
    cases h
    exact .inl (mem_of_lookup hkeyword)
  · split at h
    · exact .inr (Option.some.inj h).symm
    · cases h

theorem breaksOut_of_palette {name value : String} (h : Palette.resolve? name = some value) :
    breaksOut value = false := by
  rcases palette?_cases h with hkeyword | rfl
  · have hmem : value ∈ Palette.keywords.map Prod.snd := List.mem_map.2 ⟨_, hkeyword, rfl⟩
    exact breaksOut_of_mem (by simp only [fixedTexts, List.mem_append, hmem, or_true, true_or])
  · exact breaksOut_reference (Text.not_breaksOut_of_isIdentifier (isIdentifier_of_palette? h))

theorem breaksOut_of_opaqueColor? {color value : String} (h : opaqueColor? color = some value) :
    breaksOut value = false := by
  rcases opaqueColor?_cases h with ⟨inner, -, hvalue, -⟩ | hreference | hpalette
  · exact breaksOut_of_arbitrary? hvalue
  · exact breaksOut_of_reference? hreference
  · exact breaksOut_of_palette hpalette

/-! ## What a family does with a value -/

/-- **Whatever a family does with a checked value stays inside.** -/
theorem isContained_of_assign? {family value : String} {hint : Option String} {declarations : List Declaration}
    (hvalue : breaksOut value = false) (h : assign? family hint value = some declarations) :
    ∀ d ∈ declarations, d.IsContained := by
  rcases fills_of_assign? h with hfills | hfills
  · exact hfills.isContained hvalue
  · exact hfills.isContained (breaksOut_negation hvalue)

/-! ## The six forms -/

section Forms

variable {base : String} {declarations : List Declaration}

/-- `[--name:value]/opacity` -/
theorem isContained_of_propertyWithOpacity? (h : propertyWithOpacity? base = some declarations) :
    ∀ d ∈ declarations, d.IsContained := by
  obtain ⟨name, raw, modifier, value, percentage, -, hname, -, -, hvalue, hpercentage, rfl⟩ :=
    propertyWithOpacity?_eq_some h
  have hname := Text.isIdentifier_dashes hname
  have hplain := breaksOut_of_arbitrary? hvalue
  have hmixed := breaksOut_colorMix hplain (breaksOut_of_opacity? hpercentage)
  intro d hd
  rcases List.mem_pair.1 hd with rfl | rfl
  · exact Declaration.isContained_property.2 ⟨hname, hplain⟩
  -- the mix stands in an `@supports` block, which sets the same property
  · exact ⟨breaksOut_of_mem (by simp [fixedTexts]), List.forall_mem_singleton.2 ⟨hname, hmixed⟩⟩

/-- `family-color/opacity` -/
theorem isContained_of_colorWithOpacity? (h : colorWithOpacity? base = some declarations) :
    ∀ d ∈ declarations, d.IsContained := by
  obtain ⟨family, properties, color, modifier, value, percentage, -, hmem, -, hvalue, hpercentage, rfl⟩ :=
    colorWithOpacity?_eq_some h
  have hmixed := breaksOut_colorMix (breaksOut_of_opaqueColor? hvalue) (breaksOut_of_opacity? hpercentage)
  rw [each_eq_fill]
  exact (isListed_of_mem_table hmem).isContained_fill hmixed

/-- `[name:value]` and `family-[value]` -/
theorem isContained_of_bracketed? (h : bracketed? base = some declarations) :
    ∀ d ∈ declarations, d.IsContained := by
  rcases bracketed?_eq_some h with ⟨name, raw, value, -, hname, -, hvalue, rfl⟩ | ⟨family, rest, value, -, hvalue, h⟩
  · exact List.forall_mem_singleton.2
      (Declaration.isContained_property.2 ⟨hname, breaksOut_of_arbitrary? hvalue⟩)
  · exact isContained_of_assign? (breaksOut_of_arbitrary? hvalue) h

/-- `family-(--name)` -/
theorem isContained_of_parenthesized? (h : parenthesized? base = some declarations) :
    ∀ d ∈ declarations, d.IsContained := by
  obtain ⟨family, name, -, hname, h⟩ := parenthesized?_eq_some h
  exact isContained_of_assign? (breaksOut_var hname) h

/-- `family-number` -/
theorem isContained_of_numeric? (h : numeric? base = some declarations) :
    ∀ d ∈ declarations, d.IsContained := by
  rcases fills_of_numeric? h with ⟨negative, step, measure, hstep, hfills⟩ |
    ⟨family, step, negative, value, hvalue, hfills⟩
  · refine hfills.isContained ?_
    have hunit : breaksOut measure.unit = false := by
      cases measure <;> exact breaksOut_of_mem (by simp [Measure.unit, fixedTexts])
    rw [Text.breaksOut_append, Text.breaksOut_append, breaksOut_signText,
      Text.breaksOut_of_isPlainNumeral hstep, hunit]
    rfl
  · exact hfills.isContained (breaksOut_of_spacingStep? hvalue)

/-- `family-(hint:--name)` -/
theorem isContained_of_typedParenthesized? (h : typedParenthesized? base = some declarations) :
    ∀ d ∈ declarations, d.IsContained := by
  obtain ⟨family, hint, name, -, hname, h⟩ := typedParenthesized?_eq_some h
  exact (fills_of_typed? h).isContained (breaksOut_var hname)

/-- **Every form gives declarations that stay inside.** -/
theorem isContained_of_read? {form : Form} (h : form.read? base = some declarations) :
    ∀ d ∈ declarations, d.IsContained := by
  cases form with
  | propertyWithOpacity => exact isContained_of_propertyWithOpacity? h
  | colorWithOpacity => exact isContained_of_colorWithOpacity? h
  | bracketed => exact isContained_of_bracketed? h
  | parenthesized => exact isContained_of_parenthesized? h
  | numeric => exact isContained_of_numeric? h
  | typedParenthesized => exact isContained_of_typedParenthesized? h

/-- What is resolved is read as one of the forms. -/
theorem isContained_of_resolve? (h : resolve? base = some declarations) :
    ∀ d ∈ declarations, d.IsContained := by
  obtain ⟨form, -, hform⟩ := exists_form_of_resolve? h
  exact isContained_of_read? hform

end Forms

end Dynamic

/-! ## Colors of the theme -/

/-- A color of the theme is looked up with what stands behind its family, or with what an opacity leaves of that. -/
theorem Compiler.themeColor?_eq_some {theme : Theme} {base : String} {declarations : List Declaration}
    (h : Compiler.themeColor? theme base = some declarations) :
    ∃ properties rest, ColorFamily.split? base = some (properties, rest) ∧
      ((theme.colors.contains rest = true ∧ declarations = Declaration.each properties (Palette.reference rest)) ∨
        ∃ name percentage, Dynamic.splitOpacity? rest = some (name, percentage) ∧ theme.colors.contains name = true ∧
          declarations = Declaration.each properties (Dynamic.colorMix (Palette.reference name) percentage)) := by
  obtain ⟨⟨properties, rest⟩, hsplit, h⟩ := Option.bind_eq_some_iff.1 h
  refine ⟨properties, rest, hsplit, ?_⟩
  dsimp only at h
  cases hopacity : Dynamic.splitOpacity? rest with
  | some split =>
    obtain ⟨name, percentage⟩ := split
    simp only [hopacity] at h
    split at h
    · rename_i hname
      cases h
      exact .inr ⟨name, percentage, rfl, hname, rfl⟩
    · cases h
  | none =>
    simp only [hopacity] at h
    split at h
    · rename_i hname
      cases h
      exact .inl ⟨hname, rfl⟩
    · cases h

/-- **The color of a checked theme** stays inside: its name is an identifier. -/
theorem Compiler.isContained_of_themeColor? {theme : Theme} (hvalid : theme.validate = .ok ())
    {base : String} {declarations : List Declaration}
    (h : Compiler.themeColor? theme base = some declarations) : ∀ d ∈ declarations, d.IsContained := by
  obtain ⟨properties, rest, hsplit, h⟩ := themeColor?_eq_some h
  have hnames := Dynamic.isIdentifier_of_split? hsplit
  have hreference : ∀ {name : String}, theme.colors.contains name →
      breaksOut (Palette.reference name) = false := fun hname =>
    Dynamic.breaksOut_reference
      (Text.not_breaksOut_of_isIdentifier (Theme.isIdentifier_of_color hvalid hname))
  rcases h with ⟨hname, rfl⟩ | ⟨name, percentage, hopacity, hname, rfl⟩
  · exact Declaration.isContained_each hnames (hreference hname)
  · -- with an opacity the name is only a part of what was written, but it is looked up all the same
    exact Declaration.isContained_each hnames
      (Dynamic.breaksOut_colorMix (hreference hname) (Dynamic.breaksOut_of_splitOpacity? hopacity))

/-! ## Both together -/

/-- **No dynamic utility and no color of a checked theme gets out of its declarations.** Whatever the base
utility, every property that is set, inside an `@supports` block too, has a name that is not empty and made
of ASCII letters, digits, `-` and `_`, and a value without semicolons and braces. -/
theorem resolved_declarations_stay_inside (base : String) (declarations : List Declaration)
    (h : Dynamic.resolve? base = some declarations ∨
      ∃ theme : Theme, theme.validate = .ok () ∧ Compiler.themeColor? theme base = some declarations) :
    ∀ d ∈ declarations, ∀ name value : String, (name, value) ∈ d.properties →
      (name ≠ "" ∧ ∀ c ∈ name.toList, c.isAlphanum = true ∨ c = '-' ∨ c = '_') ∧
      (∀ c ∈ value.toList, c ≠ ';' ∧ c ≠ '\x7b' ∧ c ≠ '\x7d') := by
  have hcontained : ∀ d ∈ declarations, d.IsContained := by
    rcases h with hdynamic | ⟨theme, hvalid, htheme⟩
    · exact Dynamic.isContained_of_resolve? hdynamic
    · exact Compiler.isContained_of_themeColor? hvalid htheme
  intro d hd name value hp
  obtain ⟨hname, hvalue⟩ := (hcontained d hd).of_mem hp
  simp only [isIdentifier, Bool.and_eq_true, Bool.not_eq_true', List.all_eq_true, Text.isNameChar,
    Bool.or_eq_true, beq_iff_eq, or_assoc] at hname
  refine ⟨⟨?_, hname.2⟩, fun c hc => ?_⟩
  · rintro rfl
    -- an identifier is not empty
    exact absurd hname.1 (by decide)
  · have hdelimiter := Text.breaksOut_eq_false_iff.1 hvalue c hc
    simpa [Text.isDelimiter, not_or, and_assoc] using hdelimiter

/-- The property `[top:0]` sets `top` to `0`, and neither gets out. -/
theorem top_stays_inside :
    Dynamic.resolve? "[top:0]" = some [.property "top" "0"] ∧
    ("top" ≠ "" ∧ ∀ c ∈ "top".toList, c.isAlphanum = true ∨ c = '-' ∨ c = '_') ∧
    (∀ c ∈ "0".toList, c ≠ ';' ∧ c ≠ '\x7b' ∧ c ≠ '\x7d') := by
  have hresolved : Dynamic.resolve? "[top:0]" = some [.property "top" "0"] := by decide
  exact ⟨hresolved, resolved_declarations_stay_inside "[top:0]" _ (Or.inl hresolved)
    (.property "top" "0") (List.mem_singleton_self _) "top" "0" (List.mem_singleton_self _)⟩

end AtomicCss
