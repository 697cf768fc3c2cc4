import AtomicCss.Proofs.Dynamic.Negation
import AtomicCss.Proofs.Numeric.Quarters

/-!
# The steps of the spacing families

Behind the dash of a spacing family or a translation stands a step: a multiple of the spacing unit in quarters, or, for
some of the families, a fraction of the whole. This module says which texts are steps, and what is set for each.

* A multiple is digits, with or without a dot between digits, that denote a quarter.
* A fraction is two counts with a slash between them, the lower of which is not zero. A count is digits, but it may have
  a plus sign in front, which a multiple may not (`plus_is_part_of_a_fraction`).

## The architecture

* **`SetsStep`**, **`numeric?_step_iff`** — what a family sets to the value of a step.
* **`IsCount`**, **`count?_eq_some_iff`** — the counts of a fraction.
* **`eq_numeric_of_fractional`**, **`eq_numeric_of_digit`** — a fraction and a multiple have no other form than that of
  a number.
* **`fractions_are_counts`**, **`multiples_are_quarters`** — both kinds of steps.
-/

namespace AtomicCss.Dynamic

open Catalog (spacingValue)

variable {family step value base : String} {declarations : List Declaration}

/-! ## Families without a unit -/

/-- The families whose numbers have no unit. -/
def stepFamilies : List String :=
  Catalog.Spacing.families.map (fun spacing => spacing.name) ++ translations.map Prod.fst

/-- What a family without a unit sets to the value of a step. -/
inductive SetsStep (family value : String) : List Declaration → Prop where
  /-- A translation sets the custom property of its axis, and applies both axes. -/
  | translation {axis : String} (haxis : (family, axis) ∈ translations) :
    SetsStep family value
      [.property axis value, .property "translate" "var(--tw-translate-x, 0) var(--tw-translate-y, 0)"]
  /-- A spacing family sets all of its properties to the value. -/
  | spacing {spacing : Catalog.Spacing.Family} (hspacing : spacing ∈ Catalog.Spacing.families)
      (hname : spacing.name = family) :
    SetsStep family value (Declaration.each spacing.properties value)

theorem stepFamilies_pass : (stepFamilies.all fun family => (numericFamilies.lookup family).isNone) = true := by
  decide

theorem numericFamilies_lookup_of_stepFamilies (h : family ∈ stepFamilies) : numericFamilies.lookup family = none :=
  Option.isNone_iff_eq_none.1 (List.all_eq_true.1 stepFamilies_pass family h)

theorem spacingFamilies_found : (Catalog.Spacing.families.all fun spacing =>
    Catalog.Spacing.family? spacing.name == some spacing && (translations.lookup spacing.name).isNone) = true := by
  decide

/-- A spacing family is found in its own table, and it is no translation. -/
theorem lookup_of_mem_families {spacing : Catalog.Spacing.Family} (h : spacing ∈ Catalog.Spacing.families) :
    Catalog.Spacing.family? spacing.name = some spacing ∧ translations.lookup spacing.name = none := by
  simpa using List.all_eq_true.1 spacingFamilies_found _ h

theorem mem_stepFamilies_of_fractional : ∀ family ∈ fractional, family ∈ stepFamilies := by
  decide

theorem mem_stepFamilies_of_spacing {spacing : Catalog.Spacing.Family} (h : spacing ∈ Catalog.Spacing.families) :
    spacing.name ∈ stepFamilies :=
  List.mem_append_left _ (List.mem_map.2 ⟨spacing, h, rfl⟩)

theorem mem_knownFamilies_of_stepFamilies (h : family ∈ stepFamilies) : family ∈ knownFamilies := by
  rcases List.mem_append.1 h with h | h <;> simp only [knownFamilies, List.mem_append, h, or_true, true_or]

/-- Every family without a unit sets something. -/
theorem exists_setsStep (h : family ∈ stepFamilies) (value : String) :
    ∃ declarations, SetsStep family value declarations := by
  rcases List.mem_append.1 h with h | h
  · obtain ⟨spacing, hspacing, rfl⟩ := List.mem_map.1 h
    exact ⟨_, .spacing hspacing rfl⟩
  · obtain ⟨⟨family, axis⟩, haxis, rfl⟩ := List.mem_map.1 h
    exact ⟨_, .translation haxis⟩

theorem fill_translateTemplate (axis value : String) : (translateTemplate axis).fill value =
    [.property axis value, .property "translate" "var(--tw-translate-x, 0) var(--tw-translate-y, 0)"] := by
  rw [translateTemplate, Template.fill, List.map_cons, List.map_singleton, Slot.fill_whole, Slot.fill_fixed]
  rfl

/-- The value of a step decides what is set. -/
theorem spaced?_iff :
    spaced? family step false = some declarations ↔
      ∃ value, spacingStep? family step false = some value ∧ SetsStep family value declarations := by
  constructor
  · intro h
    obtain ⟨value, hvalue, ⟨axis, haxis, rfl⟩ | ⟨spacing, hspacing, -, rfl⟩⟩ := spaced?_eq_some h
    · rw [fill_translateTemplate]
      exact ⟨value, hvalue, .translation (mem_of_lookup haxis)⟩
    · obtain ⟨hmem, hname⟩ := Catalog.Spacing.mem_families_of_family? hspacing
      exact ⟨value, hvalue, .spacing hmem hname⟩
  · rintro ⟨value, hvalue, hsets⟩
    cases hsets with
    | translation haxis =>
      have hfound := List.all_eq_true.1 translations_found _ haxis
      rw [Bool.and_eq_true, beq_iff_eq] at hfound
      rw [spaced?, hvalue, Option.bind_eq_bind, Option.bind_some, hfound.1, ← fill_translateTemplate]
    | spacing hspacing hname =>
      subst hname
      obtain ⟨hfamily, haxis⟩ := lookup_of_mem_families hspacing
      simp [spaced?, hvalue, hfamily, haxis]

/-- No other table has a spacing family. -/
theorem setsStep_spacing_iff {spacing : Catalog.Spacing.Family} (hspacing : spacing ∈ Catalog.Spacing.families) :
    SetsStep spacing.name value declarations ↔ declarations = Declaration.each spacing.properties value := by
  obtain ⟨hfamily, hnone⟩ := lookup_of_mem_families hspacing
  refine ⟨fun h => ?_, fun h => h ▸ .spacing hspacing rfl⟩
  generalize hname : spacing.name = name at h
  cases h with
  | translation haxis =>
    have haxis := List.all_eq_true.1 translations_found _ haxis
    rw [Bool.and_eq_true, beq_iff_eq, ← hname, hnone] at haxis
    cases haxis.1
  | spacing hspacing' hname' =>
    have hsame := (lookup_of_mem_families hspacing').1
    rw [hname', ← hname, hfamily] at hsame
    rw [Option.some.inj hsame]

/-- **What is read for a step**: the value of the step decides. -/
theorem numeric?_step_iff (hfamily : family ∈ stepFamilies) (hdash : '-' ∉ step.toList) :
    numeric? (family ++ "-" ++ step) = some declarations ↔
      ∃ value, spacingStep? family step false = some value ∧ SetsStep family value declarations := by
  have hstart := startsWith_dash_of_mem_knownFamilies (mem_knownFamilies_of_stepFamilies hfamily) ("-" ++ step)
  rw [← String.append_assoc] at hstart
  have hread := numeric?_append hdash hstart false
  rw [show signText false = "" from rfl, String.empty_append] at hread
  rw [hread, Operand.read?, numericFamilies_lookup_of_stepFamilies hfamily]
  exact spaced?_iff

/-! ## Counts -/

/-- Digits that denote a number below `2 ^ 32`. -/
def IsPlainCount (s : String) (n : Nat) : Prop :=
  s ≠ "" ∧ (∀ c ∈ s.toList, c.isDigit = true) ∧ digitsValue s.toList = n ∧ n < 2 ^ 32

/-- Digits that denote a number below `2 ^ 32`, with or without a plus sign in front. -/
def IsCount (s : String) (n : Nat) : Prop :=
  ∃ digits, (s = digits ∨ s = "+" ++ digits) ∧ IsPlainCount digits n

theorem IsPlainCount.not_startsWith {s : String} {n : Nat} (h : IsPlainCount s n) : Text.startsWith "+" s = false := by
  rw [← Bool.not_eq_true, Text.startsWith_iff]
  rintro ⟨rest, rfl⟩
  exact absurd (h.2.1 '+' (by simp)) (by decide)

/-- Among the counts, those without a plus sign are digits. -/
theorem IsCount.isPlainCount_iff {s : String} {n : Nat} (h : IsCount s n) :
    IsPlainCount s n ↔ Text.startsWith "+" s = false := by
  refine ⟨IsPlainCount.not_startsWith, fun hplus => ?_⟩
  obtain ⟨digits, rfl | rfl, hcount⟩ := h
  · exact hcount
  · rw [Text.startsWith_iff.2 ⟨digits, rfl⟩] at hplus
    cases hplus

theorem isPlainCount_iff {s : String} {n : Nat} :
    (isDigits s.toList && digitsValue s.toList < twoPow 32) = true ∧ digitsValue s.toList = n ↔ IsPlainCount s n := by
  have hpow : twoPow 32 = 2 ^ 32 := rfl
  simp only [isDigits, Bool.and_eq_true, Bool.not_eq_true', List.isEmpty_eq_false_iff, List.all_eq_true,
    decide_eq_true_eq, IsPlainCount, hpow, ne_eq, String.toList_eq_nil_iff]
  constructor
  · rintro ⟨⟨⟨hne, hdigits⟩, hlt⟩, rfl⟩
    exact ⟨hne, hdigits, rfl, hlt⟩
  · rintro ⟨hne, hdigits, rfl, hlt⟩
    exact ⟨⟨⟨hne, hdigits⟩, hlt⟩, rfl⟩

/-- **A count is read as the number that it denotes.** -/
theorem count?_eq_some_iff {s : String} {n : Nat} : count? s = some n ↔ IsCount s n := by
  have hread (digits : String) (h : (Text.after? "+" s).getD s = digits) :
      count? s = some n ↔ IsPlainCount digits n := by
    rw [count?, h, ← isPlainCount_iff]
    split
    · rename_i hchecks
      simp only [Option.some.injEq, hchecks, true_and]
    · rename_i hchecks
      simp only [reduceCtorEq, hchecks, false_and]
  cases hplus : Text.after? "+" s with
  | some digits =>
    have heq := Text.after?_eq_some_iff.1 hplus
    rw [hread digits (by rw [hplus, Option.getD_some])]
    refine ⟨fun h => ⟨digits, .inr heq, h⟩, ?_⟩
    rintro ⟨digits', rfl | heq', h⟩
    · have hstart := h.not_startsWith
      rw [Text.startsWith_iff.2 ⟨digits, heq⟩] at hstart
      cases hstart
    · obtain rfl := (String.append_right_inj "+").1 (heq.symm.trans heq')
      exact h
  | none =>
    rw [hread s (by rw [hplus, Option.getD_none])]
    refine ⟨fun h => ⟨s, .inl rfl, h⟩, ?_⟩
    rintro ⟨digits, rfl | rfl, h⟩
    · exact h
    · rw [Text.after?_eq_some_iff.2 rfl] at hplus
      cases hplus

/-! ## The values of steps -/

/-- The value of a fraction, with both numbers in decimal. -/
def fractionValue (numerator denominator : Nat) : String :=
  "calc(" ++ toString numerator ++ "/" ++ toString denominator ++ " * 100%)"

/-- **Two counts are a fraction**, unless the lower one is zero. -/
theorem spacingStep?_fraction_iff (hfamily : family ∈ fractional) {a b : String} (hslash : '/' ∉ a.toList) :
    spacingStep? family (a ++ "/" ++ b) false = some value ↔
      ∃ n d, IsCount a n ∧ IsCount b d ∧ d ≠ 0 ∧ value = fractionValue n d := by
  have hcut : Text.cut? "/" (a ++ "/" ++ b) = some (a, b) := Text.cut?_append [] rfl (by simp) hslash b
  have hvalue (n d : Nat) : "calc(" ++ toString n ++ "/" ++ toString d ++ " * " ++ signText false ++ "100%)" =
      fractionValue n d := by
    rw [fractionValue, show " * 100%)" = " * " ++ (signText false ++ "100%)") from rfl]
    simp only [String.append_assoc]
  rw [spacingStep?, hcut]
  constructor
  · intro h
    obtain ⟨n, hn, h⟩ := Option.bind_eq_some_iff.1 h
    obtain ⟨d, hd, h⟩ := Option.bind_eq_some_iff.1 h
    split at h
    · cases h
    · rename_i hchecks
      rw [Bool.or_eq_true, not_or, decide_eq_true_eq] at hchecks
      rw [hvalue] at h
      exact ⟨n, d, count?_eq_some_iff.1 hn, count?_eq_some_iff.1 hd, hchecks.1, (Option.some.inj h).symm⟩
  · rintro ⟨n, d, hn, hd, hzero, rfl⟩
    have hchecks : ¬ (decide (d = 0) || !fractional.contains family) = true := by
      simp [hzero, hfamily]
    show fraction? family a b false = _
    rw [fraction?, count?_eq_some_iff.2 hn, count?_eq_some_iff.2 hd, ← hvalue]
    exact if_neg hchecks

/-- **A quarter is a multiple of the spacing unit.** -/
theorem spacingStep?_multiple_iff (hslash : '/' ∉ step.toList) (hlength : step.length ≤ 15) :
    spacingStep? family step false = some value ↔
      (∃ q, IsNumeral step q ∧ ∃ n : Nat, q = n / 4) ∧ value = spacingValue step := by
  have hcut : Text.cut? "/" step = none := by
    rw [Option.eq_none_iff_forall_ne_some]
    rintro ⟨left, right⟩ hcut
    exact hslash (by simp [Text.eq_append_of_cut? hcut])
  rw [← isQuarterStep_numeralValue_iff hlength, spacingStep?, hcut]
  dsimp only
  rw [multiple?, show signText false = "" from rfl, String.empty_append]
  split
  · rename_i hchecks
    simp only [Option.some.injEq, hchecks, true_and, eq_comm]
  · rename_i hchecks
    simp only [reduceCtorEq, hchecks, false_and]

/-! ## The form of a step -/

/-- If no other form reads a utility, then one form decides. -/
theorem resolve?_iff_of_form {form : Form}
    (h : ∀ {other : Form} {declarations}, other.fits base = true → other.read? base = some declarations →
      other = form) :
    resolve? base = some declarations ↔ form.fits base = true ∧ form.read? base = some declarations := by
  rw [resolve?_eq_some_iff]
  constructor
  · rintro ⟨other, hfits, hread⟩
    obtain rfl := h hfits hread
    exact ⟨hfits, hread⟩
  · rintro ⟨hfits, hread⟩
    exact ⟨form, hfits, hread⟩

/-- **A family of fractions with neither kind of bracket behind it** is followed by a number: it does not begin as a
family of colors does, and all other forms have a bracket. -/
theorem eq_numeric_of_fractional (hfamily : family ∈ fractional) (hbase : base = family ++ "-" ++ step)
    (hsquare : '[' ∉ base.toList) (hround : '(' ∉ base.toList) {form : Form}
    (hread : form.read? base = some declarations) : form = .numeric := by
  cases form with
  | propertyWithOpacity =>
    obtain ⟨-, cs, hcs⟩ := behindName_of_propertyWithOpacity? hread
    exact absurd (hcs ▸ List.mem_cons_self) hsquare
  | colorWithOpacity =>
    obtain ⟨color, name, modifier, heq, hcolor, -⟩ := shape_of_colorWithOpacity? hread
    obtain ⟨entry, hentry, rfl⟩ := List.mem_map.1 hcolor
    have hapart := List.all_eq_true.1 (List.all_eq_true.1 fractional_apart _ hfamily) _ hentry
    have hcolors : (entry.1 ++ "-").toList <+: base.toList :=
      ⟨(name ++ "/" ++ modifier).toList, by rw [heq]; simp⟩
    exact absurd ⟨step.toList, by rw [hbase]; simp⟩ (not_prefix_of_beginApart hapart hcolors)
  | bracketed =>
    obtain ⟨inner, hbehind, -⟩ := behindName_of_bracketed? hread
    exact absurd (mem_of_behindName hbehind) hsquare
  | parenthesized =>
    obtain ⟨name, hbehind, -⟩ := behindName_of_parenthesized? hread
    exact absurd (mem_of_behindName hbehind) hround
  | numeric => rfl
  | typedParenthesized =>
    obtain ⟨hint, cs, hbehind, -⟩ := behindName_of_typedParenthesized? hread
    exact absurd (mem_of_behindName hbehind) hround

/-- **What ends in a digit and has no slash** is a number: an opacity stands behind a slash, and all other forms end in a
bracket. -/
theorem eq_numeric_of_digit (hslash : '/' ∉ base.toList) {c : Char} (hlast : base.toList.getLast? = some c)
    (hdigit : c.isDigit = true) {form : Form} (hfits : form.fits base = true)
    (hread : form.read? base = some declarations) : form = .numeric := by
  have hbracket {stop : String} {d : Char} (hstop : stop.toList = [d]) (hd : d.isDigit = false) :
      Text.endsWith stop base ≠ true := by
    intro hends
    rw [getLast?_of_endsWith hends hstop] at hlast
    cases hlast
    rw [hd] at hdigit
    cases hdigit
  cases form with
  | propertyWithOpacity =>
    obtain ⟨name, raw, modifier, heq, -⟩ := shape_of_propertyWithOpacity? hread
    exact absurd (by simp [heq]) hslash
  | colorWithOpacity =>
    obtain ⟨color, name, modifier, heq, -⟩ := shape_of_colorWithOpacity? hread
    exact absurd (by simp [heq]) hslash
  | bracketed => exact absurd hfits (hbracket rfl rfl)
  | parenthesized => exact absurd (Bool.and_eq_true_iff.1 hfits).1 (hbracket rfl rfl)
  | numeric => rfl
  | typedParenthesized => exact absurd (Bool.and_eq_true_iff.1 hfits).1 (hbracket rfl rfl)

/-! ## Fractions -/

theorem IsCount.exists_last {s : String} {n : Nat} (h : IsCount s n) :
    ∃ c, s.toList.getLast? = some c ∧ c.isDigit = true := by
  obtain ⟨digits, hs, hne, hdigits, -⟩ := h
  obtain ⟨c, hc⟩ : ∃ c, digits.toList.getLast? = some c :=
    ⟨_, List.getLast?_eq_some_getLast (mt String.toList_eq_nil_iff.1 hne)⟩
  refine ⟨c, ?_, hdigits c (List.mem_of_getLast? hc)⟩
  rcases hs with rfl | rfl
  · exact hc
  · rw [String.toList_append, List.getLast?_append, hc]
    rfl

/-- **What is read for a fraction.** -/
theorem resolve?_fraction_iff (hfamily : family ∈ fractional) {a b : String}
    (ha : ∀ c ∈ ['-', '/', '[', '('], c ∉ a.toList) (hb : ∀ c ∈ ['-', '/', '[', '('], c ∉ b.toList) :
    resolve? (family ++ "-" ++ (a ++ "/" ++ b)) = some declarations ↔
      ∃ n d, IsCount a n ∧ IsCount b d ∧ d ≠ 0 ∧ SetsStep family (fractionValue n d) declarations := by
  have hstep := mem_stepFamilies_of_fractional family hfamily
  have hname := isIdentifier_of_mem_knownFamilies (mem_knownFamilies_of_stepFamilies hstep)
  have hfree {c : Char} (hc : c ∈ ['[', '(']) : c ∉ (family ++ "-" ++ (a ++ "/" ++ b)).toList := by
    have hplain : Text.isNameChar c = false ∧ c ≠ '-' ∧ c ≠ '/' := by
      rcases List.mem_pair.1 hc with rfl | rfl <;> decide
    have hmem : c ∈ ['-', '/', '[', '('] := by
      rcases List.mem_pair.1 hc with rfl | rfl <;> decide
    simp [Text.not_mem_of_isIdentifier hname hplain.1, hplain.2, ha c hmem, hb c hmem]
  have hdash : '-' ∉ (a ++ "/" ++ b).toList := by
    simp [ha '-' (by decide), hb '-' (by decide)]
  have hform {form : Form} {declarations} (_ : form.fits (family ++ "-" ++ (a ++ "/" ++ b)) = true)
      (hread : form.read? (family ++ "-" ++ (a ++ "/" ++ b)) = some declarations) : form = .numeric :=
    eq_numeric_of_fractional hfamily rfl (hfree (by decide)) (hfree (by decide)) hread
  rw [resolve?_iff_of_form hform, show Form.numeric.read? _ = numeric? _ from rfl, numeric?_step_iff hstep hdash]
  constructor
  · rintro ⟨-, value, hvalue, hsets⟩
    obtain ⟨n, d, hn, hd, hzero, rfl⟩ := (spacingStep?_fraction_iff hfamily (ha '/' (by decide))).1 hvalue
    exact ⟨n, d, hn, hd, hzero, hsets⟩
  · rintro ⟨n, d, hn, hd, hzero, hsets⟩
    refine ⟨?_, _, (spacingStep?_fraction_iff hfamily (ha '/' (by decide))).2 ⟨n, d, hn, hd, hzero, rfl⟩, hsets⟩
    obtain ⟨c, hlast, hdigit⟩ := hd.exists_last
    rw [Form.fits, String.toList_append, String.toList_append, String.toList_append, List.getLast?_append,
      List.getLast?_append, hlast]
    exact hdigit

/-- **Fractions are counts**, with a slash between them, behind a family that accepts fractions. Neither side holds a
dash, a slash or an opening bracket.

* The utility is one exactly if both sides are counts and the lower one is not zero.
* Then the value is the fraction of the whole, with both numbers in decimal, and it is set on the properties of the
  family, or on the custom property of the axis in front of the translation.
* Of the fractions that are read, those that consist of digits are the ones in which no side begins with a plus
  sign. -/
theorem fractions_are_counts (hfamily : family ∈ fractional) {a b : String}
    (ha : ∀ c ∈ ['-', '/', '[', '('], c ∉ a.toList) (hb : ∀ c ∈ ['-', '/', '[', '('], c ∉ b.toList) :
    ((resolve? (family ++ "-" ++ (a ++ "/" ++ b))).isSome ↔ ∃ n d, IsCount a n ∧ IsCount b d ∧ d ≠ 0) ∧
    (∀ n d, IsCount a n → IsCount b d → d ≠ 0 →
      ∃ declarations, SetsStep family (fractionValue n d) declarations ∧
        resolve? (family ++ "-" ++ (a ++ "/" ++ b)) = some declarations) ∧
    ((resolve? (family ++ "-" ++ (a ++ "/" ++ b))).isSome →
      ((∃ n d, IsPlainCount a n ∧ IsPlainCount b d ∧ d ≠ 0) ↔
        Text.startsWith "+" a = false ∧ Text.startsWith "+" b = false)) := by
  have hsets (n d : Nat) := exists_setsStep (mem_stepFamilies_of_fractional family hfamily) (fractionValue n d)
  have hsome : (resolve? (family ++ "-" ++ (a ++ "/" ++ b))).isSome ↔ ∃ n d, IsCount a n ∧ IsCount b d ∧ d ≠ 0 := by
    rw [Option.isSome_iff_exists]
    constructor
    · rintro ⟨declarations, hresolve⟩
      obtain ⟨n, d, hn, hd, hzero, -⟩ := (resolve?_fraction_iff hfamily ha hb).1 hresolve
      exact ⟨n, d, hn, hd, hzero⟩
    · rintro ⟨n, d, hn, hd, hzero⟩
      obtain ⟨declarations, hset⟩ := hsets n d
      exact ⟨declarations, (resolve?_fraction_iff hfamily ha hb).2 ⟨n, d, hn, hd, hzero, hset⟩⟩
  refine ⟨hsome, fun n d hn hd hzero => ?_, fun hread => ?_⟩
  · obtain ⟨declarations, hset⟩ := hsets n d
    exact ⟨declarations, hset, (resolve?_fraction_iff hfamily ha hb).2 ⟨n, d, hn, hd, hzero, hset⟩⟩
  · obtain ⟨n, d, hn, hd, hzero⟩ := hsome.1 hread
    constructor
    · rintro ⟨n, d, hn, hd, -⟩
      exact ⟨hn.not_startsWith, hd.not_startsWith⟩
    · rintro ⟨hplus, hplus'⟩
      exact ⟨n, d, hn.isPlainCount_iff.2 hplus, hd.isPlainCount_iff.2 hplus', hzero⟩

/-- Zeros in front of the digits are left out. -/
theorem half_of_the_width_is_translated :
    resolve? "translate-x-03/6" = some [.property "--tw-translate-x" "calc(3/6 * 100%)",
      .property "translate" "var(--tw-translate-x, 0) var(--tw-translate-y, 0)"] := by
  have hthree : IsCount "03" 3 := ⟨"03", .inl rfl, by decide, by simp, by decide, by decide⟩
  have hsix : IsCount "6" 6 := ⟨"6", .inl rfl, by decide, by simp, by decide, by decide⟩
  obtain ⟨-, hsets, -⟩ := fractions_are_counts (show "translate-x" ∈ fractional by decide)
    (show ∀ c ∈ ['-', '/', '[', '('], c ∉ "03".toList by simp)
    (show ∀ c ∈ ['-', '/', '[', '('], c ∉ "6".toList by simp)
  obtain ⟨declarations, hset, hresolve⟩ := hsets 3 6 hthree hsix (by decide)
  rw [show "translate-x-03/6" = "translate-x" ++ "-" ++ ("03" ++ "/" ++ "6") by decide, hresolve]
  cases hset with
  | @translation axis haxis =>
    obtain rfl : axis = "--tw-translate-x" := by simpa [translations] using haxis
    decide
  | @spacing spacing hspacing hname =>
    exact absurd (List.mem_map.2 ⟨spacing, hspacing, hname⟩) (by decide)

/-- **A plus sign is part of a fraction**, though it is no digit and a multiple may not have one. -/
theorem plus_is_part_of_a_fraction :
    resolve? "w-+1/2" = some [.property "width" "calc(1/2 * 100%)"] ∧ resolve? "w-+2" = none ∧
    ¬ ∀ family ∈ fractional, ∀ a b : String, (∀ c ∈ ['-', '/', '[', '('], c ∉ a.toList ∧ c ∉ b.toList) →
      ((resolve? (family ++ "-" ++ (a ++ "/" ++ b))).isSome ↔
        ∃ n d, IsPlainCount a n ∧ IsPlainCount b d ∧ d ≠ 0) := by
  have hread : resolve? "w-+1/2" = some [.property "width" "calc(1/2 * 100%)"] := by decide
  refine ⟨hread, by decide, fun hall => ?_⟩
  have hsome : (resolve? ("w" ++ "-" ++ ("+1" ++ "/" ++ "2"))).isSome = true := by
    rw [show "w" ++ "-" ++ ("+1" ++ "/" ++ "2") = "w-+1/2" by decide, hread]
    rfl
  obtain ⟨n, d, hn, -⟩ := (hall "w" (by decide) "+1" "2" (by simp)).1 hsome
  exact absurd (hn.2.1 '+' (by decide)) (by decide)

/-! ## Multiples -/

/-- **Multiples are quarters.** Take a spacing family and behind its dash a text of at most fifteen characters that ends
in a digit and holds neither a dash nor a slash.

* The utility is one exactly if the text is digits, or digits on both sides of a dot, and denotes a multiple of a
  quarter.
* Then every property of the family is set to that multiple of the spacing unit, in which the text stands as it is. -/
theorem multiples_are_quarters {spacing : Catalog.Spacing.Family} (hspacing : spacing ∈ Catalog.Spacing.families)
    (hlength : step.length ≤ 15) (hdash : '-' ∉ step.toList) (hslash : '/' ∉ step.toList)
    (hdigit : ∃ c ∈ step.toList.getLast?, c.isDigit = true) :
    ((resolve? (spacing.name ++ "-" ++ step)).isSome ↔ ∃ q, IsNumeral step q ∧ ∃ n : Nat, q = n / 4) ∧
    ((resolve? (spacing.name ++ "-" ++ step)).isSome →
      resolve? (spacing.name ++ "-" ++ step) =
        some (Declaration.each spacing.properties ("calc(var(--spacing) * " ++ step ++ ")"))) := by
  have hstep := mem_stepFamilies_of_spacing hspacing
  have hname := isIdentifier_of_mem_knownFamilies (mem_knownFamilies_of_stepFamilies hstep)
  obtain ⟨c, hc, hcdigit⟩ := hdigit
  have hlast : (spacing.name ++ "-" ++ step).toList.getLast? = some c := by
    rw [String.toList_append, List.getLast?_append, hc]
    rfl
  have hfree : '/' ∉ (spacing.name ++ "-" ++ step).toList := by
    simp [Text.not_mem_of_isIdentifier hname (show Text.isNameChar '/' = false by decide), hslash]
  have hfits : Form.numeric.fits (spacing.name ++ "-" ++ step) = true := by
    rw [Form.fits, hlast]
    exact hcdigit
  have hread {declarations : List Declaration} : resolve? (spacing.name ++ "-" ++ step) = some declarations ↔
      (∃ q, IsNumeral step q ∧ ∃ n : Nat, q = n / 4) ∧
        declarations = Declaration.each spacing.properties (spacingValue step) := by
    rw [resolve?_iff_of_form (eq_numeric_of_digit hfree hlast hcdigit),
      show Form.numeric.read? _ = numeric? _ from rfl, numeric?_step_iff hstep hdash, and_iff_right hfits]
    simp only [spacingStep?_multiple_iff hslash hlength, setsStep_spacing_iff hspacing, and_assoc, exists_and_left,
      exists_eq_left]
  refine ⟨⟨fun hsome => ?_, fun hquarter => ?_⟩, fun hsome => ?_⟩
  · obtain ⟨declarations, hresolve⟩ := Option.isSome_iff_exists.1 hsome
    exact (hread.1 hresolve).1
  · rw [hread.2 ⟨hquarter, rfl⟩]
    rfl
  · obtain ⟨declarations, hresolve⟩ := Option.isSome_iff_exists.1 hsome
    exact hread.2 ⟨(hread.1 hresolve).1, rfl⟩

/-- Both sides of the size are set to a multiple with a fraction, which the catalog does not list. -/
theorem size_in_quarters_is_read :
    resolve? "size-013.250" = some [.property "width" "calc(var(--spacing) * 013.250)",
      .property "height" "calc(var(--spacing) * 013.250)"] := by
  have hspacing : (⟨"size", ["width", "height"], false⟩ : Catalog.Spacing.Family) ∈ Catalog.Spacing.families := by
    decide
  have hdenotes : IsNumeral "013.250" (13 + 250 / 10 ^ 3) := by
    have hdotted : IsNumeral ("013" ++ "." ++ "250")
        ((digitsValue "013".toList : ℚ) + digitsValue "250".toList / 10 ^ "250".length) :=
      .dotted (by decide) (by decide)
    exact hdotted
  obtain ⟨hsome, hsets⟩ := multiples_are_quarters hspacing (show "013.250".length ≤ 15 by decide)
    (by decide) (by decide) ⟨'0', by decide, by decide⟩
  exact hsets (hsome.2 ⟨_, hdenotes, 53, by norm_num⟩)

end AtomicCss.Dynamic
