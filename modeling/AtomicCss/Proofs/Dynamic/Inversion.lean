import AtomicCss.Dynamic
import AtomicCss.Proofs.Text.Delimiter

/-!
# Dynamic utilities taken apart

A dynamic utility is read step by step, and each step may refuse it. This module goes back from what comes out to
the text: whatever a reading gives, it says how the text was cut, which checks the parts have passed and how the
declarations are put together from them. Everything else that is said about dynamic utilities starts from here, so
that no other module has to open a reading again.

## The architecture

* **values** — `arbitrary?_eq_some_iff`, `reference?_eq_some_iff`, `opacity?_cases`, `opaqueColor?_cases`.
* **numbers** — `measured?_eq_some`, `spaced?_eq_some`, `spacingStep?_cases`.
* **the six forms** — `propertyWithOpacity?_eq_some` and its kin, one lemma for each.
* **`exists_form_of_resolve?`** — a dynamic utility has one of the forms.
-/

namespace AtomicCss.Dynamic

open Text (isIdentifier breaksOut)

/-! ## Values -/

/-- The text of an address stands for itself, all other text is decoded. -/
def meaning (raw : String) : String :=
  if Text.startsWith "url(" raw then raw else Text.decodeSpaces raw

theorem arbitrary?_eq_some_iff {raw value : String} :
    arbitrary? raw = some value ↔
      Text.isAllBlank raw = false ∧ breaksOut raw = false ∧ Text.isBalanced raw = true ∧ value = meaning raw := by
  unfold arbitrary? meaning
  cases Text.isAllBlank raw <;> cases breaksOut raw <;> cases Text.isBalanced raw <;>
    by_cases h : Text.startsWith "url(" raw <;> simp [h, eq_comm]

theorem reference?_eq_some_iff {s value : String} :
    reference? s = some value ↔
      ∃ name, isIdentifier name = true ∧ s = "(--" ++ name ++ ")" ∧ value = "var(--" ++ name ++ ")" := by
  constructor
  · intro h
    obtain ⟨name, hname, rfl⟩ := Option.map_eq_some_iff.1 h
    obtain ⟨hinside, hid⟩ := Option.filter_eq_some_iff.1 hname
    exact ⟨name, hid, Text.eq_append_of_enclosed? hinside, rfl⟩
  · rintro ⟨name, hid, rfl, rfl⟩
    unfold reference?
    rw [Text.enclosed?_append, Option.filter_some, if_pos hid]
    rfl

/-- An opacity is a number of percent, a percentage or a fraction in brackets, or a reference. -/
theorem opacity?_cases {modifier percentage : String} (h : opacity? modifier = some percentage) :
    (isPlainNumeral modifier = true ∧ percentage = modifier ++ "%") ∨
      (∃ number, isPlainNumeral number = true ∧ modifier = "[" ++ (number ++ "%") ++ "]" ∧
        percentage = number ++ "%") ∨
      (∃ inner fraction, modifier = "[" ++ inner ++ "]" ∧ Decimal.parse? inner = some fraction ∧
        fractionPercent? fraction = some percentage) ∨
      reference? modifier = some percentage := by
  unfold opacity? at h
  split at h
  · rename_i hnumeral
    obtain ⟨_, -, rfl⟩ := Option.map_eq_some_iff.1 h
    exact .inl ⟨hnumeral, rfl⟩
  · split at h
    · rename_i inner hinner
      have hmodifier := Text.eq_append_of_enclosed? hinner
      unfold bracketedOpacity? at h
      split at h
      · rename_i number hnumber
        have hinner := Text.eq_append_of_before? hnumber
        split at h
        · rename_i hnumeral
          cases h
          exact .inr (.inl ⟨number, hnumeral, by rw [hmodifier, hinner], hinner⟩)
        · cases h
      · obtain ⟨fraction, hparse, hfraction⟩ := Option.bind_eq_some_iff.1 h
        exact .inr (.inr (.inl ⟨inner, fraction, hmodifier, hparse, hfraction⟩))
    · exact .inr (.inr (.inr h))

/-- An opacity stands behind a slash, and neither side of the slash is empty. -/
theorem splitOpacity?_eq_some {value color percentage : String}
    (h : splitOpacity? value = some (color, percentage)) :
    ∃ modifier, value = color ++ "/" ++ modifier ∧ modifier ≠ "" ∧ opacity? modifier = some percentage := by
  obtain ⟨⟨left, modifier⟩, hcut, h⟩ := Option.bind_eq_some_iff.1 h
  obtain ⟨found, hfound, h⟩ := Option.bind_eq_some_iff.1 h
  obtain ⟨rfl, rfl⟩ := Prod.mk.inj (Option.some.inj h)
  unfold Text.cutLastOutside? at hcut
  split at hcut
  · rename_i l ls r rs hcut'
    cases hcut
    refine ⟨_, ?_, by simp, hfound⟩
    apply String.toList_injective
    rw [(Text.cutLastOutside_eq_some hcut').1]
    simp
  · cases hcut

/-- The color in front of an opacity is authored, referred to, or one of the palette. -/
theorem opaqueColor?_cases {color value : String} (h : opaqueColor? color = some value) :
    (∃ inner, color = "[" ++ inner ++ "]" ∧ arbitrary? inner = some value ∧ isColorValue value = true) ∨
      reference? color = some value ∨ Palette.resolve? color = some value := by
  unfold opaqueColor? at h
  split at h
  · rename_i inner hinner
    obtain ⟨hvalue, hcolor⟩ := Option.filter_eq_some_iff.1 h
    exact .inl ⟨inner, Text.eq_append_of_enclosed? hinner, hvalue, hcolor⟩
  · split at h
    · exact .inr (.inl h)
    · exact .inr (.inr h)

/-! ## Numbers -/

theorem text?_eq_some {measure : Measure} {step text : String} (h : measure.text? step = some text) :
    isPlainNumeral step = true ∧ text = step ++ measure.unit := by
  unfold Measure.text? at h
  split at h
  · rename_i hstep
    cases h
    exact ⟨(Bool.and_eq_true_iff.1 hstep).1, rfl⟩
  · cases h

theorem measured?_eq_some {family : NumericFamily} {step : String} {negative : Bool}
    {declarations : List Declaration} (h : measured? family step negative = some declarations) :
    (negative = true → family.signed = true) ∧ ∃ text, family.measure.text? step = some text ∧
      declarations = family.template.fill (signText negative ++ text) := by
  unfold measured? at h
  split at h
  · cases h
  · rename_i hsign
    obtain ⟨text, htext, rfl⟩ := Option.map_eq_some_iff.1 h
    exact ⟨by simpa using hsign, text, htext, rfl⟩

/-- A step is a fraction of the whole, or a multiple of the spacing unit. -/
theorem spacingStep?_cases {family step value : String} {negative : Bool}
    (h : spacingStep? family step negative = some value) :
    (∃ left right numerator denominator, step = left ++ "/" ++ right ∧ count? left = some numerator ∧
      count? right = some denominator ∧ denominator ≠ 0 ∧ family ∈ fractional ∧
      value = "calc(" ++ toString numerator ++ "/" ++ toString denominator ++ " * " ++ signText negative ++
        "100%)") ∨
      (isPlainNumeral step = true ∧ value = Catalog.spacingValue (signText negative ++ step)) := by
  unfold spacingStep? at h
  split at h
  · rename_i left right hcut
    obtain ⟨numerator, hnumerator, h⟩ := Option.bind_eq_some_iff.1 h
    obtain ⟨denominator, hdenominator, h⟩ := Option.bind_eq_some_iff.1 h
    split at h
    · cases h
    · rename_i hchecks
      simp only [Bool.or_eq_true, not_or, decide_eq_true_eq, Bool.not_eq_true, Bool.not_eq_false'] at hchecks
      exact .inl ⟨left, right, numerator, denominator, Text.eq_append_of_cut? hcut, hnumerator, hdenominator,
        hchecks.1, List.contains_iff_mem.1 hchecks.2, (Option.some.inj h).symm⟩
  · unfold multiple? at h
    split at h
    · rename_i hstep
      exact .inr ⟨(Bool.and_eq_true_iff.1 hstep).1, (Option.some.inj h).symm⟩
    · cases h

theorem spaced?_eq_some {family step : String} {negative : Bool} {declarations : List Declaration}
    (h : spaced? family step negative = some declarations) :
    ∃ value, spacingStep? family step negative = some value ∧
      ((∃ axis, translations.lookup family = some axis ∧ declarations = (translateTemplate axis).fill value) ∨
        ∃ spacing, Catalog.Spacing.family? family = some spacing ∧ (negative = true → spacing.signed = true) ∧
          declarations = Declaration.each spacing.properties value) := by
  obtain ⟨value, hvalue, h⟩ := Option.bind_eq_some_iff.1 h
  refine ⟨value, hvalue, ?_⟩
  split at h
  · rename_i axis haxis
    exact .inl ⟨axis, haxis, (Option.some.inj h).symm⟩
  · obtain ⟨spacing, hspacing, h⟩ := Option.bind_eq_some_iff.1 h
    split at h
    · cases h
    · rename_i hsign
      exact .inr ⟨spacing, hspacing, by simpa using hsign, (Option.some.inj h).symm⟩

/-! ## The forms -/

/-- A modifier stands behind a closing bracket and a slash, and is not empty. -/
theorem cutModifier_eq_some {cs left right : List Char} (h : cutModifier cs = some (left, right)) :
    cs = left ++ ']' :: '/' :: right ∧ right ≠ [] := by
  induction cs generalizing left with
  | nil => cases h
  | cons c cs ih =>
    simp only [cutModifier] at h
    split at h
    · rename_i l r hcut
      cases h
      obtain ⟨rfl, hright⟩ := ih hcut
      exact ⟨rfl, hright⟩
    · split at h
      · cases h
        exact ⟨rfl, by simp⟩
      · cases h

variable {base : String} {declarations : List Declaration}

/-- `[--name:value]/opacity` -/
theorem propertyWithOpacity?_eq_some (h : propertyWithOpacity? base = some declarations) :
    ∃ name raw modifier value percentage, base = "[--" ++ name ++ ":" ++ raw ++ "]/" ++ modifier ∧
      isIdentifier name = true ∧ '\n' ∉ raw.toList ∧ modifier ≠ "" ∧ arbitrary? raw = some value ∧
      opacity? modifier = some percentage ∧
      declarations = [.property ("--" ++ name) value,
        .supports colorMixSupport [("--" ++ name, colorMix value percentage)]] := by
  obtain ⟨⟨name, rest⟩, hcut, h⟩ := Option.bind_eq_some_iff.1 h
  obtain ⟨after, hafter, hcut⟩ := Option.bind_eq_some_iff.1 hcut
  obtain ⟨⟨raw, modifier⟩, hmodifier, h⟩ := Option.bind_eq_some_iff.1 h
  dsimp only at h
  split at h
  · cases h
  · rename_i hchecks
    simp only [Bool.or_eq_true, not_or, Bool.not_eq_true, Bool.not_eq_false'] at hchecks
    obtain ⟨value, hvalue, h⟩ := Option.bind_eq_some_iff.1 h
    obtain ⟨percentage, hpercentage, h⟩ := Option.bind_eq_some_iff.1 h
    obtain ⟨hchars, hne⟩ := cutModifier_eq_some hmodifier
    have hrest : rest = String.ofList raw ++ "]/" ++ String.ofList modifier := by
      apply String.toList_injective
      rw [hchars]
      simp
    have hline : '\n' ∉ (String.ofList raw).toList := by
      rw [String.toList_ofList]
      intro hmem
      have hmem : '\n' ∈ rest.toList := hchars ▸ List.mem_append_left _ hmem
      rw [List.contains_iff_mem.2 hmem] at hchecks
      exact absurd hchecks.2 (by decide)
    refine ⟨name, String.ofList raw, String.ofList modifier, value, percentage, ?_, hchecks.1.1, hline,
      by simpa using hne, hvalue, hpercentage, (Option.some.inj h).symm⟩
    rw [Text.eq_append_of_after? hafter, Text.eq_append_of_cut? hcut, hrest]
    simp only [String.append_assoc]

theorem split?_eq_some {rest : String} {properties : List String}
    (h : ColorFamily.split? base = some (properties, rest)) :
    ∃ family, base = family ++ "-" ++ rest ∧ (family, properties) ∈ ColorFamily.table := by
  obtain ⟨⟨family, names⟩, hmem, hsome⟩ := List.exists_of_findSome?_eq_some h
  obtain ⟨after, hafter, heq⟩ := Option.map_eq_some_iff.1 hsome
  obtain ⟨rfl, rfl⟩ := Prod.mk.inj heq
  exact ⟨family, Text.eq_append_of_after? hafter, hmem⟩

/-- `family-color/opacity` -/
theorem colorWithOpacity?_eq_some (h : colorWithOpacity? base = some declarations) :
    ∃ family properties color modifier value percentage, base = family ++ "-" ++ color ++ "/" ++ modifier ∧
      (family, properties) ∈ ColorFamily.table ∧ modifier ≠ "" ∧ opaqueColor? color = some value ∧
      opacity? modifier = some percentage ∧
      declarations = Declaration.each properties (colorMix value percentage) := by
  obtain ⟨⟨properties, rest⟩, hsplit, h⟩ := Option.bind_eq_some_iff.1 h
  obtain ⟨⟨color, percentage⟩, hopacity, h⟩ := Option.bind_eq_some_iff.1 h
  obtain ⟨value, hvalue, h⟩ := Option.bind_eq_some_iff.1 h
  obtain ⟨family, hbase, hmem⟩ := split?_eq_some hsplit
  obtain ⟨modifier, hrest, hne, hpercentage⟩ := splitOpacity?_eq_some hopacity
  refine ⟨family, properties, color, modifier, value, percentage, ?_, hmem, hne, hvalue, hpercentage,
    (Option.some.inj h).symm⟩
  rw [hbase, hrest]
  simp only [String.append_assoc]

/-- The text in brackets behind a family: all that follows the opening bracket, but for a closing one at its end. -/
def inBrackets (rest : String) : String :=
  (Text.before? "]" rest).getD rest

/-- `[name:value]` and `family-[value]` -/
theorem bracketed?_eq_some (h : bracketed? base = some declarations) :
    (∃ name raw value, base = "[" ++ name ++ ":" ++ raw ++ "]" ∧ isIdentifier name = true ∧
      Text.startsWith "_" name = false ∧ arbitrary? raw = some value ∧ declarations = [.property name value]) ∨
    ∃ family rest value, base = family ++ "-[" ++ rest ∧
      arbitrary? (splitHint (inBrackets rest)).2 = some value ∧
      assign? family (splitHint (inBrackets rest)).1 value = some declarations := by
  unfold bracketed? at h
  split at h
  · rename_i inner hinner
    obtain ⟨⟨name, raw⟩, hcut, h⟩ := Option.bind_eq_some_iff.1 h
    dsimp only at h
    split at h
    · cases h
    · rename_i hchecks
      simp only [Bool.or_eq_true, not_or, Bool.not_eq_true, Bool.not_eq_false'] at hchecks
      obtain ⟨value, hvalue, h⟩ := Option.bind_eq_some_iff.1 h
      refine .inl ⟨name, raw, value, ?_, hchecks.1, hchecks.2, hvalue, (Option.some.inj h).symm⟩
      rw [Text.eq_append_of_enclosed? hinner, Text.eq_append_of_cut? hcut]
      simp only [String.append_assoc]
  · obtain ⟨⟨family, rest⟩, hcut, h⟩ := Option.bind_eq_some_iff.1 h
    dsimp only at h
    split at h
    · cases h
    · obtain ⟨value, hvalue, h⟩ := Option.bind_eq_some_iff.1 h
      exact .inr ⟨family, rest, value, Text.eq_append_of_cut? hcut, hvalue, h⟩

/-- A text in brackets behind a family ends with the closing one. -/
theorem exists_eq_append_of_fits (hfits : Form.bracketed.fits base = true) {family rest : String}
    (hbase : base = family ++ "-[" ++ rest) : ∃ inner, rest = inner ++ "]" := by
  obtain ⟨front, hfront⟩ := Text.endsWith_iff.1 (show Text.endsWith "]" base = true from hfits)
  have hlast : base.toList.getLast? = some ']' := by simp [hfront]
  rw [hbase, String.toList_append] at hlast
  rcases List.eq_nil_or_concat rest.toList with hnil | ⟨init, last, hrest⟩
  · simp [hnil] at hlast
  · rw [hrest, List.concat_eq_append, ← List.append_assoc, List.getLast?_concat] at hlast
    cases hlast
    refine ⟨String.ofList init, String.toList_injective ?_⟩
    rw [hrest]
    simp

/-- The same, with the closing bracket that the shape of the form asks for. -/
theorem bracketed?_cases (hfits : Form.bracketed.fits base = true) (h : bracketed? base = some declarations) :
    (∃ name raw value, base = "[" ++ name ++ ":" ++ raw ++ "]" ∧ isIdentifier name = true ∧
      Text.startsWith "_" name = false ∧ arbitrary? raw = some value ∧ declarations = [.property name value]) ∨
    ∃ family inner value, base = family ++ "-[" ++ inner ++ "]" ∧ arbitrary? (splitHint inner).2 = some value ∧
      assign? family (splitHint inner).1 value = some declarations := by
  refine (bracketed?_eq_some h).imp_right ?_
  rintro ⟨family, rest, value, hbase, hvalue, hassign⟩
  obtain ⟨inner, rfl⟩ := exists_eq_append_of_fits hfits hbase
  have hinner : inBrackets (inner ++ "]") = inner := by
    rw [inBrackets, Text.before?_eq_some_iff.2 rfl, Option.getD_some]
  rw [hinner] at hvalue hassign
  exact ⟨family, inner, value, hbase.trans String.append_assoc.symm, hvalue, hassign⟩

/-- `family-(--name)` -/
theorem parenthesized?_eq_some (h : parenthesized? base = some declarations) :
    ∃ family name, base = family ++ "-" ++ "(--" ++ name ++ ")" ∧ isIdentifier name = true ∧
      assign? family none ("var(--" ++ name ++ ")") = some declarations := by
  obtain ⟨⟨family, rest⟩, hcut, h⟩ := Option.bind_eq_some_iff.1 h
  dsimp only at h
  split at h
  · cases h
  · obtain ⟨value, hvalue, h⟩ := Option.bind_eq_some_iff.1 h
    obtain ⟨name, hname, heq, rfl⟩ := reference?_eq_some_iff.1 hvalue
    refine ⟨family, name, ?_, hname, h⟩
    calc base = family ++ "-(" ++ rest := Text.eq_append_of_cut? hcut
      _ = family ++ "-" ++ ("(" ++ rest) := by
        rw [show "-(" = "-" ++ "(" from rfl]
        simp only [String.append_assoc]
      _ = family ++ "-" ++ "(--" ++ name ++ ")" := by
        rw [heq]
        simp only [String.append_assoc]

/-- `family-number`, with a sign or without -/
theorem numeric?_eq_some (h : numeric? base = some declarations) :
    ∃ negative family step, base = signText negative ++ family ++ "-" ++ step ∧
      ((∃ known, numericFamilies.lookup family = some known ∧ measured? known step negative = some declarations) ∨
        (numericFamilies.lookup family = none ∧ spaced? family step negative = some declarations)) := by
  obtain ⟨⟨family, step⟩, hcut, h⟩ := Option.bind_eq_some_iff.1 h
  have hsign : base = signText (Text.startsWith "-" base) ++ (Text.after? "-" base).getD base := by
    rw [Text.startsWith_eq_isSome_after?]
    cases hafter : Text.after? "-" base with
    | none => exact String.empty_append.symm
    | some rest => exact Text.eq_append_of_after? hafter
  have hrest := Text.eq_append_of_cutLast? hcut
  rw [show String.singleton '-' = "-" from rfl] at hrest
  have hbase : base = signText (Text.startsWith "-" base) ++ family ++ "-" ++ step := by
    rw [hrest] at hsign
    exact hsign.trans (by simp only [String.append_assoc])
  dsimp only at h
  split at h
  · cases h
  · split at h
    · rename_i known hknown
      exact ⟨_, family, step, hbase, .inl ⟨known, hknown, h⟩⟩
    · rename_i hunknown
      exact ⟨_, family, step, hbase, .inr ⟨hunknown, h⟩⟩

/-- `family-(hint:--name)` -/
theorem typedParenthesized?_eq_some (h : typedParenthesized? base = some declarations) :
    ∃ family hint name, base = family ++ "-" ++ "(" ++ hint ++ ":--" ++ name ++ ")" ∧ isIdentifier name = true ∧
      typed? family hint ("var(--" ++ name ++ ")") = some declarations := by
  obtain ⟨⟨family, rest⟩, hcut, h⟩ := Option.bind_eq_some_iff.1 h
  obtain ⟨inner, hinner, h⟩ := Option.bind_eq_some_iff.1 h
  obtain ⟨⟨hint, property⟩, hhint, h⟩ := Option.bind_eq_some_iff.1 h
  obtain ⟨value, hvalue, h⟩ := Option.bind_eq_some_iff.1 h
  obtain ⟨name, hname, heq, rfl⟩ := reference?_eq_some_iff.1 hvalue
  have hproperty : property ++ ")" = "--" ++ name ++ ")" := by
    rw [show "(--" = "(" ++ "--" from rfl] at heq
    simpa only [String.append_assoc, String.append_right_inj] using heq
  refine ⟨family, hint, name, ?_, hname, h⟩
  calc base = family ++ "-(" ++ (hint ++ ":" ++ property ++ ")") := by
        rw [Text.eq_append_of_cut? hcut, Text.eq_append_of_before? hinner, Text.eq_append_of_cut? hhint]
    _ = family ++ "-(" ++ (hint ++ ":" ++ ("--" ++ name ++ ")")) := by
        rw [← hproperty]
        simp only [String.append_assoc]
    _ = family ++ "-" ++ "(" ++ hint ++ ":--" ++ name ++ ")" := by
        rw [show "-(" = "-" ++ "(" from rfl, show ":--" = ":" ++ "--" from rfl]
        simp only [String.append_assoc]

/-- **A dynamic utility has one of the forms.** -/
theorem exists_form_of_resolve? (h : resolve? base = some declarations) :
    ∃ form : Form, form.fits base = true ∧ form.read? base = some declarations := by
  unfold resolve? at h
  split at h
  · cases h
  · obtain ⟨form, -, hform⟩ := List.exists_of_findSome?_eq_some h
    unfold Form.resolve? at hform
    split at hform
    · rename_i hfits
      exact ⟨form, hfits, hform⟩
    · cases hform

end AtomicCss.Dynamic
