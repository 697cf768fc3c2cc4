import AtomicCss.Proofs.Dynamic.Blanks

/-!
# Brackets and blanks in the values of dynamic utilities

A value in brackets is checked before its underscores are read as spaces, and the check counts square brackets and
parentheses apart. This module says what the check comes to for everything that a dynamic utility sets, after the value
has been decoded, negated, mixed with an opacity or put into a template:

* the brackets of either kind are balanced in every value;
* all values are nested, both kinds taken together, exactly if the utility itself is: overlapping brackets come through
  the check, but the code never makes any;
* no value is blank unless the utility has brackets around nothing but blanks and underscores, and which of those set a
  blank value has been said before (`SetsBlank`).

The last exception is real (`underscore_sets_a_blank`).

## The architecture

* **`Carries`** — what the text of a utility says of a value; **`Carries.of_arbitrary?`** for authored text,
  **`Carries.intercalate`** for a value that is put into other text.
* **`Template.IsListed.isRegular`** — the tables.
* **`Keeps`**, **`Carries.keeps`** — the same for all values that are set.
* **`keeps_of_read?`** — the six forms, one lemma each.
* **`values_keep_brackets`** — all together.
-/

namespace AtomicCss.Dynamic

open Text (isIdentifier isAllBlank isBalanced isBracket Nested)

/-! ## Values and the text that carries them -/

/-- What the text of a utility says of a value. -/
structure Carries (base value : String) : Prop where
  balanced : isBalanced value = true
  nested_iff : Nested value ↔ Nested base

variable {base value : String} {declarations : List Declaration}

theorem Carries.of_nested (hbase : Nested base) (hvalue : Nested value) : Carries base value where
  balanced := hvalue.isBalanced
  nested_iff := iff_of_true hvalue hbase

theorem isBalanced_meaning (raw : String) : isBalanced (meaning raw) = isBalanced raw := by
  unfold meaning
  split
  · rfl
  · exact Text.isBalanced_decodeSpaces raw

theorem nested_meaning {raw : String} : Nested (meaning raw) ↔ Nested raw := by
  unfold meaning
  split
  · exact Iff.rfl
  · exact Text.nested_decodeSpaces

/-- **Authored text** between two texts that are nested without it. -/
theorem Carries.of_arbitrary? (front back : String) {raw : String} (hvalue : arbitrary? raw = some value)
    (hbase : base = front ++ raw ++ back) (hframe : Nested (front ++ back)) : Carries base value := by
  obtain ⟨-, -, hbalanced, rfl⟩ := arbitrary?_eq_some_iff.1 hvalue
  have hjoined : base = raw.intercalate [front, back] := by
    rw [String.intercalate_cons_cons, String.intercalate_singleton, hbase]
  refine ⟨by rw [isBalanced_meaning, hbalanced], ?_⟩
  rw [nested_meaning, hjoined]
  exact (Text.nested_intercalate_iff hbalanced (by simpa using hframe) (by simp)).symm

theorem intercalate_eq_join {pieces : List String} (h : pieces.length < 2) :
    value.intercalate pieces = String.join pieces := by
  match pieces, h with
  | [], _ => rfl
  | [piece], _ => simp

/-- **A value that is put into other text** is carried like the value itself. -/
theorem Carries.intercalate (h : Carries base value) {pieces : List String} (hpieces : Nested (String.join pieces))
    (hlength : 2 ≤ pieces.length) : Carries base (value.intercalate pieces) where
  balanced := Text.isBalanced_intercalate h.balanced hpieces.isBalanced
  nested_iff := (Text.nested_intercalate_iff h.balanced hpieces hlength).trans h.nested_iff

theorem Carries.negated (h : Carries base value) : Carries base (negation value) := by
  have hpieces : negation value = value.intercalate ["calc(", " * -1)"] := by
    rw [String.intercalate_cons_cons, String.intercalate_singleton, negation]
  rw [hpieces]
  exact h.intercalate (by decide +kernel) (by simp)

theorem Carries.mixed (h : Carries base value) {percentage : String} (hpercentage : Nested percentage) :
    Carries base (colorMix value percentage) := by
  have hpieces : colorMix value percentage =
      value.intercalate ["color-mix(in oklab, ", " " ++ percentage ++ ", transparent)"] := by
    unfold colorMix
    simp [String.append_assoc]
  have hjoin : String.join ["color-mix(in oklab, ", " " ++ percentage ++ ", transparent)"] =
      percentage.intercalate ["color-mix(in oklab,  ", ", transparent)"] := by
    rw [String.intercalate_cons_cons, String.intercalate_singleton, String.join_cons, String.join_cons, String.join_nil,
      String.append_empty, show "color-mix(in oklab,  " = "color-mix(in oklab, " ++ " " from rfl]
    simp only [String.append_assoc]
  rw [hpieces]
  refine h.intercalate ?_ (by simp)
  rw [hjoin]
  exact hpercentage.intercalate _ (by decide +kernel)

/-! ## Templates -/

/-- Whether the pieces of a slot are nested when they are joined. -/
def Slot.isRegular (slot : Slot) : Bool :=
  decide (Nested (String.join slot.pieces))

/-- Whether all slots are regular, and one of them at least has a place for the value. -/
def Template.isRegular (template : Template) : Bool :=
  template.all Slot.isRegular && template.any fun slot => decide (2 ≤ slot.pieces.length)

theorem allTemplates_regular : allTemplates.all Template.isRegular = true := by decide +kernel

theorem isRegular_whole (name : String) : (Slot.whole name).isRegular = true := by
  have hjoin : Nested (String.join ["", ""]) := by decide +kernel
  rw [Slot.isRegular, Slot.whole, decide_eq_true hjoin]

theorem Template.IsListed.isRegular {template : Template} (h : template.IsListed) : template.isRegular = true := by
  rcases h with hmem | ⟨names, hne, -, rfl⟩
  · exact List.all_eq_true.1 allTemplates_regular template hmem
  · obtain ⟨name, names, rfl⟩ := List.exists_cons_of_ne_nil hne
    rw [Template.isRegular, Template.each, List.all_map, List.any_map, Bool.and_eq_true]
    refine ⟨List.all_eq_true.2 fun name _ => isRegular_whole name, ?_⟩
    simp [Slot.whole]

/-- A slot with a place for the value carries it, and a slot without one has a value of its own. -/
theorem Carries.slot (h : Carries base value) {slot : Slot} (hregular : slot.isRegular = true) :
    Carries base (value.intercalate slot.pieces) ∨
      slot.pieces.length < 2 ∧ Nested (value.intercalate slot.pieces) := by
  have hnested := of_decide_eq_true hregular
  by_cases hlength : 2 ≤ slot.pieces.length
  · exact .inl (h.intercalate hnested hlength)
  · rw [intercalate_eq_join (Nat.lt_of_not_le hlength)]
    exact .inr ⟨Nat.lt_of_not_le hlength, hnested⟩

/-- What the text of a utility says of all values that are set. -/
structure Keeps (base : String) (values : List String) : Prop where
  balanced : ∀ value ∈ values, isBalanced value = true
  nested_iff : (∀ value ∈ values, Nested value) ↔ Nested base

/-- **A listed template keeps what is carried.** -/
theorem Carries.keeps (h : Carries base value) (hfills : Fills value declarations) :
    Keeps base (values declarations) := by
  obtain ⟨template, hlisted, rfl⟩ := hfills
  obtain ⟨hall, hany⟩ := Bool.and_eq_true_iff.1 hlisted.isRegular
  have hslot {slot : Slot} (hmem : slot ∈ template) := h.slot (List.all_eq_true.1 hall slot hmem)
  rw [values_fill]
  refine ⟨List.forall_mem_map.2 fun slot hmem => ?_, ⟨fun hnested => ?_, fun hbase => ?_⟩⟩
  · rcases hslot hmem with hcarries | ⟨-, hnested⟩
    · exact hcarries.balanced
    · exact hnested.isBalanced
  · -- one slot at least has a place for the value
    obtain ⟨slot, hmem, hlength⟩ := List.any_eq_true.1 hany
    rcases hslot hmem with hcarries | ⟨hshort, -⟩
    · exact hcarries.nested_iff.1 (hnested _ (List.mem_map_of_mem hmem))
    · exact absurd (of_decide_eq_true hlength) (Nat.not_le_of_lt hshort)
  · refine List.forall_mem_map.2 fun slot hmem => ?_
    rcases hslot hmem with hcarries | ⟨-, hnested⟩
    · exact hcarries.nested_iff.2 hbase
    · exact hnested

/-! ## Names and numbers -/

theorem isBracket_of_isNameChar {c : Char} (h : Text.isNameChar c = true) : isBracket c = false :=
  Text.isBracket_of_test rfl h

theorem nested_of_isIdentifier {name : String} (h : isIdentifier name = true) : Nested name :=
  Text.nested_of_forall fun c hc => isBracket_of_isNameChar (Text.all_isNameChar_of_isIdentifier h c hc)

theorem filter_of_isIdentifier {name : String} (h : isIdentifier name = true) : name.toList.filter isBracket = [] :=
  List.filter_eq_nil_iff.2 fun c hc => by
    simp [isBracket_of_isNameChar (Text.all_isNameChar_of_isIdentifier h c hc)]

theorem isBracket_of_isDigit {c : Char} (h : c.isDigit = true) : isBracket c = false :=
  isBracket_of_isNameChar (by simp [Text.isNameChar, Char.isAlphanum, h])

theorem nested_of_isPlainNumeral {number : String} (h : isPlainNumeral number = true) : Nested number := by
  refine Text.nested_of_forall fun c hc => ?_
  rcases Text.isDigit_or_of_isPlainNumeral h c hc with hdigit | rfl
  · exact isBracket_of_isDigit hdigit
  · rfl

theorem nested_toString (n : Nat) : Nested (toString n) := by
  rw [Nat.toString_eq_repr]
  exact Text.nested_of_forall fun c hc => isBracket_of_isDigit (Text.isDigit_of_mem_repr hc)

theorem nested_signText (negative : Bool) : Nested (signText negative) := by
  cases negative <;> decide

theorem nested_hundredthsText (n : Nat) : Nested (hundredthsText n) := by
  have hdot : Nested "." := by decide
  unfold hundredthsText
  split
  · exact nested_toString _
  · split
    · exact ((nested_toString _).append hdot).append (nested_toString _)
    · exact (((nested_toString _).append hdot).append (nested_toString _)).append (nested_toString _)

theorem isBracket_of_isLiteralChar {c : Char} (h : isLiteralChar c = true) : isBracket c = false :=
  Text.isBracket_of_test rfl h

theorem nested_of_parse? {s : String} {d : Decimal} (h : Decimal.parse? s = some d) : Nested s :=
  Text.nested_of_forall fun c hc => isBracket_of_isLiteralChar (isLiteralChar_of_parse? h c hc)

theorem nested_of_fractionPercent? {fraction : Decimal} {percentage : String}
    (h : fractionPercent? fraction = some percentage) : Nested percentage := by
  obtain ⟨nearest, -, h⟩ := Option.bind_eq_some_iff.1 h
  split at h
  · cases h
  · obtain ⟨scaled, -, h⟩ := Option.bind_eq_some_iff.1 h
    cases h
    exact ((nested_signText fraction.negative).append (nested_hundredthsText _)).append (by decide)

/-- A name with two dashes in parentheses, alone or behind `var`. -/
theorem nested_reference {name : String} (h : isIdentifier name = true) :
    Nested ("(--" ++ name ++ ")") ∧ Nested ("var(--" ++ name ++ ")") := by
  constructor <;>
  · rw [Text.nested_congr (t := "()") (by simp [filter_of_isIdentifier h, isBracket, Text.isSquare, Text.isRound])]
    decide

/-- An opacity and its percentage are nested. -/
theorem nested_of_opacity? {modifier percentage : String} (h : opacity? modifier = some percentage) :
    Nested modifier ∧ Nested percentage := by
  have hpercent {number : String} (hnumber : isPlainNumeral number = true) : Nested (number ++ "%") :=
    (nested_of_isPlainNumeral hnumber).append (by decide)
  have hsquare {inner : String} (hinner : Nested inner) : Nested ("[" ++ inner ++ "]") := by
    rw [show "[" ++ inner ++ "]" = inner.intercalate ["[", "]"] by simp]
    exact hinner.intercalate _ (by decide)
  rcases opacity?_cases h with ⟨hnumeral, rfl⟩ | ⟨number, hnumeral, rfl, rfl⟩ |
    ⟨inner, fraction, rfl, hparse, hfraction⟩ | hreference
  · exact ⟨nested_of_isPlainNumeral hnumeral, hpercent hnumeral⟩
  · exact ⟨hsquare (hpercent hnumeral), hpercent hnumeral⟩
  · exact ⟨hsquare (nested_of_parse? hparse), nested_of_fractionPercent? hfraction⟩
  · obtain ⟨name, hname, rfl, rfl⟩ := reference?_eq_some_iff.1 hreference
    exact nested_reference hname

/-! ## What numbers and references come to -/

theorem Carries.of_numeral (hbase : Nested base) {number : String} (h : isPlainNumeral number = true)
    (negative : Bool) (measure : Measure) : Carries base (signText negative ++ (number ++ measure.unit)) := by
  have hunit : Nested measure.unit := by cases measure <;> decide
  exact .of_nested hbase ((nested_signText negative).append ((nested_of_isPlainNumeral h).append hunit))

/-- A step is inside of `calc` in either case. -/
theorem Carries.of_spacingStep? (hbase : Nested base) {family step : String} {negative : Bool}
    (h : spacingStep? family step negative = some value) : Carries base value := by
  rcases spacingStep?_cases h with ⟨left, right, numerator, denominator, -, -, -, -, -, rfl⟩ | ⟨hstep, rfl⟩
  · refine .of_nested hbase ?_
    have hinner : Nested (toString numerator ++ "/" ++ toString denominator ++ " * " ++ signText negative ++ "100%") :=
      (((((nested_toString _).append (by decide)).append (nested_toString _)).append (by decide)).append
        (nested_signText _)).append (by decide)
    have hnested := hinner.intercalate ["calc(", ")"] (by decide)
    rw [String.intercalate_cons_cons, String.intercalate_singleton] at hnested
    rw [show "100%)" = "100%" ++ ")" from rfl]
    simpa only [String.append_assoc] using hnested
  · unfold Catalog.spacingValue
    refine .of_nested hbase ?_
    have hinner := (nested_signText negative).append (nested_of_isPlainNumeral hstep)
    have hnested := hinner.intercalate ["calc(var(--spacing) * ", ")"] (by decide +kernel)
    rwa [String.intercalate_cons_cons, String.intercalate_singleton] at hnested

theorem Carries.of_reference (hbase : Nested base) {name : String} (h : isIdentifier name = true) :
    Carries base ("var(--" ++ name ++ ")") :=
  .of_nested hbase (nested_reference h).2

theorem keywords_nested : (Palette.keywords.all fun entry => decide (Nested entry.2)) = true := by
  decide

theorem Carries.of_palette? (hbase : Nested base) {color : String} (h : Palette.resolve? color = some value) :
    Carries base value := by
  rcases palette?_cases h with hkeyword | rfl
  · exact .of_nested hbase (of_decide_eq_true (List.all_eq_true.1 keywords_nested _ hkeyword))
  · have hnested := (nested_of_isIdentifier (isIdentifier_of_palette? h)).intercalate
      ["var(--color-", ")"] (by decide)
    rw [String.intercalate_cons_cons, String.intercalate_singleton] at hnested
    exact .of_nested hbase hnested

/-! ## The forms -/

/-- What a family does with a value that is carried. -/
theorem Carries.keeps_of_assign? (h : Carries base value) {family : String} {hint : Option String}
    (hassign : assign? family hint value = some declarations) : Keeps base (values declarations) := by
  rcases fills_of_assign? hassign with hfills | hfills
  · exact h.keeps hfills
  · exact h.negated.keeps hfills

/-- `[--name:value]/opacity` -/
theorem keeps_of_propertyWithOpacity? (h : propertyWithOpacity? base = some declarations) :
    Keeps base (values declarations) := by
  obtain ⟨name, raw, modifier, value, percentage, hbase, hname, -, -, hvalue, hpercentage, rfl⟩ :=
    propertyWithOpacity?_eq_some h
  obtain ⟨hmodifier, hpercentage⟩ := nested_of_opacity? hpercentage
  have hcarries : Carries base value := by
    refine .of_arbitrary? ("[--" ++ name ++ ":") ("]/" ++ modifier) hvalue (hbase.trans String.append_assoc)
      ((Text.nested_congr ?_).2 (Nested.append (s := "[]") (by decide) hmodifier))
    simp [filter_of_isIdentifier hname, isBracket, Text.isSquare, Text.isRound]
  have hmixed := hcarries.mixed hpercentage
  -- the value and its mix, which stands in the `@supports` block
  have hpair {p : String → Prop} : (∀ v ∈ [value, colorMix value percentage], p v) ↔
      p value ∧ p (colorMix value percentage) := by
    rw [List.forall_mem_cons, List.forall_mem_singleton]
  refine ⟨hpair.2 ⟨hcarries.balanced, hmixed.balanced⟩, hpair.trans ?_⟩
  rw [hcarries.nested_iff, hmixed.nested_iff, and_self]

/-- `family-color/opacity` -/
theorem keeps_of_colorWithOpacity? (h : colorWithOpacity? base = some declarations) :
    Keeps base (values declarations) := by
  obtain ⟨family, properties, color, modifier, value, percentage, hbase, hmem, -, hvalue, hpercentage, rfl⟩ :=
    colorWithOpacity?_eq_some h
  obtain ⟨hmodifier, hpercentage⟩ := nested_of_opacity? hpercentage
  have hfamily := isIdentifier_of_mem_knownFamilies (mem_knownFamilies_of_mem_table (List.mem_map.2 ⟨_, hmem, rfl⟩))
  have hfront := filter_of_isIdentifier hfamily
  have hcarries : Carries base value := by
    rcases opaqueColor?_cases hvalue with ⟨inner, rfl, hauthored, -⟩ | hreference | hpalette
    · refine .of_arbitrary? (family ++ "-" ++ "[") ("]" ++ "/" ++ modifier) hauthored ?_ ?_
      · rw [hbase]
        simp only [String.append_assoc]
      · refine (Text.nested_congr ?_).2 (Nested.append (s := "[]") (by decide) hmodifier)
        simp [hfront, isBracket, Text.isSquare, Text.isRound]
    · obtain ⟨name, hname, rfl, rfl⟩ := reference?_eq_some_iff.1 hreference
      refine .of_reference ((Text.nested_congr ?_).2 (Nested.append (s := "()") (by decide) hmodifier)) hname
      simp [hbase, hfront, filter_of_isIdentifier hname, isBracket, Text.isSquare, Text.isRound]
    · refine .of_palette? ((Text.nested_congr ?_).2 hmodifier) hpalette
      simp [hbase, hfront, filter_of_isIdentifier (isIdentifier_of_palette? hpalette), isBracket, Text.isSquare,
        Text.isRound]
  exact (hcarries.mixed hpercentage).keeps ⟨_, isListed_of_mem_table hmem, each_eq_fill _ _⟩

/-- `[name:value]` and `family-[value]` -/
theorem keeps_of_bracketed? (hfits : Form.bracketed.fits base = true) (h : bracketed? base = some declarations) :
    Keeps base (values declarations) := by
  rcases bracketed?_cases hfits h with ⟨name, raw, value, hbase, hname, -, hvalue, rfl⟩ |
    ⟨family, inner, value, hbase, hvalue, hassign⟩
  · have hcarries : Carries base value := by
      refine .of_arbitrary? ("[" ++ name ++ ":") "]" hvalue hbase ((Text.nested_congr (t := "[]") ?_).2 (by decide))
      simp [filter_of_isIdentifier hname, isBracket, Text.isSquare, Text.isRound]
    exact hcarries.keeps ⟨_, Template.isListed_single hname, property_eq_fill _ _⟩
  · have hfamily := filter_of_isIdentifier (isFamily_of_assign? hassign).isIdentifier
    have hcarries : Carries base value := by
      rcases splitHint_cases inner with hsplit | ⟨hint, raw, hmem, hraw, hsplit⟩
      · rw [hsplit] at hvalue
        refine .of_arbitrary? (family ++ "-[") "]" hvalue hbase ((Text.nested_congr (t := "[]") ?_).2 (by decide))
        simp [hfamily, isBracket, Text.isSquare, Text.isRound]
      · rw [hsplit] at hvalue
        refine .of_arbitrary? (family ++ "-[" ++ hint ++ ":") "]" hvalue ?_
          ((Text.nested_congr (t := "[]") ?_).2 (by decide))
        · rw [hbase, hraw]
          simp only [String.append_assoc]
        · simp [hfamily, filter_of_isIdentifier (isIdentifier_of_mem_hints hmem), isBracket, Text.isSquare,
            Text.isRound]
    exact hcarries.keeps_of_assign? hassign

/-- `family-(--name)` -/
theorem keeps_of_parenthesized? (h : parenthesized? base = some declarations) : Keeps base (values declarations) := by
  obtain ⟨family, name, hbase, hname, hassign⟩ := parenthesized?_eq_some h
  have hfamily := filter_of_isIdentifier (isFamily_of_assign? hassign).isIdentifier
  have hnested : Nested base := by
    refine (Text.nested_congr (t := "()") ?_).2 (by decide)
    simp [hbase, hfamily, filter_of_isIdentifier hname, isBracket, Text.isSquare, Text.isRound]
  exact (Carries.of_reference hnested hname).keeps_of_assign? hassign

/-- `family-number` -/
theorem keeps_of_numeric? (h : numeric? base = some declarations) : Keeps base (values declarations) := by
  have hnested : Nested base := by
    refine Text.nested_of_forall fun c hc => ?_
    rcases mem_of_numeric? h c hc with hname | hdigit | rfl | rfl | rfl
    · exact isBracket_of_isNameChar hname
    · exact isBracket_of_isDigit hdigit
    all_goals rfl
  rcases fills_of_numeric? h with ⟨negative, step, measure, hstep, hfills⟩ |
    ⟨family, step, negative, value, hvalue, hfills⟩
  · exact (Carries.of_numeral hnested hstep negative measure).keeps hfills
  · exact (Carries.of_spacingStep? hnested hvalue).keeps hfills

/-- `family-(hint:--name)` -/
theorem keeps_of_typedParenthesized? (h : typedParenthesized? base = some declarations) :
    Keeps base (values declarations) := by
  obtain ⟨family, hint, name, hbase, hname, htyped⟩ := typedParenthesized?_eq_some h
  obtain ⟨hfamily, hhint⟩ := mem_knownFamilies_of_typed? htyped
  have hnested : Nested base := by
    refine (Text.nested_congr (t := "()") ?_).2 (by decide)
    simp [hbase, filter_of_isIdentifier (isIdentifier_of_mem_knownFamilies hfamily),
      filter_of_isIdentifier (isIdentifier_of_mem_hints hhint), filter_of_isIdentifier hname, isBracket, Text.isSquare,
      Text.isRound]
  exact (Carries.of_reference hnested hname).keeps (fills_of_typed? htyped)

/-- **Every form keeps what its text says of the brackets.** -/
theorem keeps_of_read? {form : Form} (hfits : form.fits base = true) (h : form.read? base = some declarations) :
    Keeps base (values declarations) := by
  cases form with
  | propertyWithOpacity => exact keeps_of_propertyWithOpacity? h
  | colorWithOpacity => exact keeps_of_colorWithOpacity? h
  | bracketed => exact keeps_of_bracketed? hfits h
  | parenthesized => exact keeps_of_parenthesized? h
  | numeric => exact keeps_of_numeric? h
  | typedParenthesized => exact keeps_of_typedParenthesized? h

/-! ## All dynamic utilities -/

/-- **What every value of a dynamic utility keeps.** The square brackets and the parentheses of each value are
balanced. All values are nested, both kinds taken together, exactly if the utility is. And a value has ink in it, unless
the utility has brackets with nothing but blanks and underscores in them. More exactly, the utilities that set a blank
value are those of `SetsBlank`. -/
theorem values_keep_brackets (h : resolve? base = some declarations) :
    (∀ value ∈ values declarations, isBalanced value = true) ∧
    ((∀ value ∈ values declarations, Nested value) ↔ Nested base) ∧
    (¬ IsHollow base → ∀ value ∈ values declarations, isAllBlank value = false) ∧
    ((∃ value ∈ values declarations, isAllBlank value = true) ↔ SetsBlank base) := by
  obtain ⟨form, hfits, hread⟩ := exists_form_of_resolve? h
  have hkeeps := keeps_of_read? hfits hread
  refine ⟨hkeeps.balanced, hkeeps.nested_iff, fun hink value hvalue => ?_, exists_isAllBlank_iff h⟩
  rw [← Bool.not_eq_true]
  exact fun hblank => hink ((exists_isAllBlank_iff h).1 ⟨value, hvalue, hblank⟩).isHollow

theorem not_isHollow_of_not_mem (h : '_' ∉ base.toList) : ¬ IsHollow base := by
  rintro ⟨front, opener, raw, back, rfl, -, hmem, -⟩
  exact h (by simp [hmem])

/-- Brackets that overlap come through, since the two kinds are counted apart. And a value that other text stands around
has ink, whatever it is. -/
theorem overlapping_brackets_come_through :
    (resolve? "w-[([)]]" = some [.property "width" "([)]"] ∧ isBalanced "([)]" = true ∧
      ¬ Nested "([)]" ∧ ¬ Nested "w-[([)]]" ∧ ¬ IsHollow "w-[([)]]" ∧ isAllBlank "([)]" = false) ∧
    resolve? "blur-[_]" = some [.property "filter" "blur( )"] ∧ IsHollow "blur-[_]" ∧ ¬ SetsBlank "blur-[_]" ∧
    resolve? "size-[_]" = some [.property "width" " ", .property "height" " "] ∧ SetsBlank "size-[_]" := by
  have hresolved : resolve? "w-[([)]]" = some [.property "width" "([)]"] := by decide +kernel
  obtain ⟨hbalanced, hnested, hink, -⟩ := values_keep_brackets hresolved
  have hvalue : ¬ Nested "([)]" := by decide +kernel
  have hhollow : ¬ IsHollow "w-[([)]]" := not_isHollow_of_not_mem (by decide)
  have hunderscore : IsUnderscored "_" := by
    rw [IsUnderscored, show "_".toList = ['_'] from rfl]
    exact ⟨List.mem_singleton_self _, List.forall_mem_singleton.2 (.inr rfl)⟩
  have hblur : resolve? "blur-[_]" = some [.property "filter" "blur( )"] := by decide +kernel
  have hsize : resolve? "size-[_]" = some [.property "width" " ", .property "height" " "] := by decide +kernel
  refine ⟨⟨hresolved, hbalanced _ (List.mem_singleton_self _), hvalue, fun hbase => hvalue ?_, hhollow,
    hink hhollow _ (List.mem_singleton_self _)⟩, hblur, ⟨"blur-", "[", "_", "", rfl, .inl rfl, hunderscore⟩, ?_, hsize, ?_⟩
  · exact hnested.2 hbase _ (List.mem_singleton_self _)
  · rw [← (values_keep_brackets hblur).2.2.2]
    rintro ⟨value, hmem, hblank⟩
    obtain rfl := List.mem_singleton.1 hmem
    exact absurd hblank (by decide)
  · exact (values_keep_brackets hsize).2.2.2.1 ⟨" ", List.mem_cons_self, by decide⟩

/-- **An underscore by itself sets a blank value.** The text in the brackets is not blank when it is checked, but it is
when it has been decoded. So not every value of a dynamic utility has ink in it. -/
theorem underscore_sets_a_blank :
    resolve? "w-[_]" = some [.property "width" " "] ∧
    ¬ ∀ (base : String) (declarations : List Declaration), resolve? base = some declarations →
      ∀ value ∈ values declarations, isAllBlank value = false ∧ isBalanced value = true := by
  have hresolved : resolve? "w-[_]" = some [.property "width" " "] := by decide +kernel
  refine ⟨hresolved, fun hall => ?_⟩
  exact absurd (hall _ _ hresolved " " (List.mem_singleton_self _)).1 (by decide)

end AtomicCss.Dynamic
