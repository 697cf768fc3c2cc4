import AtomicCss.Proofs.Dynamic.Composition
import AtomicCss.Proofs.Numeric.Rounding

/-!
# How opaque a color can get

Behind its slash a color has an opacity, and the percentage that is mixed in should be between zero and a hundred. There
are three ways to write a number there, and this module says of each which numbers are accepted and which percentage is
written for them.

* A fraction of one is rounded to a machine number, compared with zero and one, and rounded again to hundredths of a
  percent. What is written is in the range.
* A number of percent is rounded to a machine number and compared with a hundred, but written as it stands. So it can be
  above a hundred by what rounding takes away.
* A percentage in brackets is not compared with anything (`bg_red_exceeds_one_hundred`).

Colors of the palette, colors of a theme and custom properties have the same opacities, so that all of this holds for
the three of them.

## The architecture

* **`NumericModifier`** — the three spellings, with the numbers of percent that they accept.
* **`exists_parse?_hundredthsText`** — what is written for a number of hundredths.
* **`fractionPercent?_isSome_iff`**, **`plainOpacity?_isSome_iff`** — which numbers are accepted.
* **`NumericModifier.isSome_iff`**, **`NumericModifier.exists_percent`** — the spellings one by one.
* **`percentages_of_mixed_colors`** — what the three kinds of utilities write.
-/

namespace AtomicCss.Dynamic

/-! ## Percentages -/

/-- The number of percent that a text stands for. -/
def percentOf? (text : String) : Option ℚ :=
  ((Text.before? "%" text).bind Decimal.parse?).map Decimal.value

theorem percentOf?_append {number : String} {d : Decimal} (h : Decimal.parse? number = some d) :
    percentOf? (number ++ "%") = some d.value := by
  rw [percentOf?, Text.before?_eq_some_iff.2 rfl, Option.bind_some, h, Option.map_some]

/-- A number and digits behind a dot. -/
theorem exists_parse?_dotted {s : String} {whole : Nat} {fraction : List Char}
    (hs : s.toList = whole.repr.toList ++ '.' :: fraction) (hfraction : isDigits fraction = true) :
    ∃ d, Decimal.parse? s = some d ∧ d.value = whole + digitsValue fraction / 10 ^ fraction.length := by
  refine ⟨_, parse?_of_dot hs (isDigits_repr whole) hfraction, ?_⟩
  have hten : (10 : ℚ) ^ fraction.length ≠ 0 := by positivity
  rw [Decimal.value, Decimal.magnitude, digitsValue_append, digitsValue_repr, zpow_neg, zpow_natCast]
  push_cast
  field_simp

theorem length_repr_of_lt : ∀ n < 10, n.repr.toList.length = 1 := by
  decide

/-- **A number of hundredths is written in decimal.** -/
theorem exists_parse?_hundredthsText (n : Nat) :
    ∃ d, Decimal.parse? (hundredthsText n) = some d ∧ d.value = n / 100 := by
  have hsum : n = 100 * (n / 100) + 10 * (n / 10 % 10) + n % 10 := by omega
  have hcast : (n : ℚ) = 100 * (n / 100 : ℕ) + 10 * (n / 10 % 10 : ℕ) + (n % 10 : ℕ) := by exact_mod_cast hsum
  have htenths := length_repr_of_lt (n / 10 % 10) (by omega)
  have hhundredths := length_repr_of_lt (n % 10) (by omega)
  unfold hundredthsText
  dsimp only
  rw [hcast]
  split
  · rename_i hwhole
    have hzero : n / 10 % 10 = 0 ∧ n % 10 = 0 := by omega
    refine ⟨_, parse?_of_isDigits (isDigits_repr _), ?_⟩
    rw [Decimal.value, Decimal.magnitude, hzero.1, hzero.2]
    show ((digitsValue (n / 100).repr.toList : ℚ)) * 10 ^ (0 : ℤ) = _
    rw [digitsValue_repr]
    simp
  · split
    · rename_i hzero
      have hchars : (toString (n / 100) ++ "." ++ toString (n / 10 % 10)).toList =
          (n / 100).repr.toList ++ '.' :: (n / 10 % 10).repr.toList := by
        simp
      obtain ⟨d, hparse, hvalue⟩ := exists_parse?_dotted hchars (isDigits_repr _)
      refine ⟨d, hparse, ?_⟩
      rw [hvalue, digitsValue_repr, htenths, hzero]
      push_cast
      ring
    · have hchars : (toString (n / 100) ++ "." ++ toString (n / 10 % 10) ++ toString (n % 10)).toList =
          (n / 100).repr.toList ++ '.' :: ((n / 10 % 10).repr.toList ++ (n % 10).repr.toList) := by
        simp
      have hdigits : isDigits ((n / 10 % 10).repr.toList ++ (n % 10).repr.toList) = true :=
        isDigits_append (isDigits_repr _) (isDigits_repr _)
      obtain ⟨d, hparse, hvalue⟩ := exists_parse?_dotted hchars hdigits
      refine ⟨d, hparse, ?_⟩
      rw [hvalue, digitsValue_append, digitsValue_repr, digitsValue_repr, List.length_append, htenths, hhundredths]
      push_cast
      ring

/-! ## Fractions of one -/

section Fractions

variable {d : Decimal} {x : Binary64} {percentage : String}

/-- A product with ten thousand of what is at most one has a nearest machine number, which is at most ten thousand. -/
theorem exists_scale_of_atMost (h : x.atMost 1 = true) :
    ∃ scaled, x.scale 10000 = some scaled ∧ scaled.round ≤ 10000 := by
  have hproduct : ((x.numerator * 10000 : ℕ) / x.denominator : ℚ) ≤ 10000 + 2 ^ ((13 : ℕ) - 53 : ℤ) := by
    have hvalue := Binary64.atMost_iff.1 h
    have hslack : (0 : ℚ) < 2 ^ ((13 : ℕ) - 53 : ℤ) := by positivity
    have heq : ((x.numerator * 10000 : ℕ) / x.denominator : ℚ) = 10000 * x.value := by
      rw [Binary64.value_eq_div]
      push_cast
      ring
    rw [heq]
    push_cast at hvalue
    linarith
  obtain ⟨scaled, hscaled, hatMost⟩ := (Binary64.atMost_nearest_iff x.denominator_pos
    (show 2 ^ 13 ≤ 10000 by decide) (by decide) (by decide)).2 (by exact_mod_cast hproduct)
  refine ⟨scaled, hscaled, ?_⟩
  have hbound : scaled.numerator ≤ 10000 * scaled.denominator := by simpa [Binary64.atMost] using hatMost
  have hpositive := scaled.denominator_pos
  rw [Binary64.round, ← Nat.lt_succ_iff, Nat.div_lt_iff_lt_mul (by omega)]
  omega

theorem scale_of_mantissa_eq_zero (h : x.mantissa = 0) : x.scale 10000 = some Binary64.zero := by
  have hnumerator : x.numerator = 0 := by rw [Binary64.numerator, h, Nat.zero_mul]
  rw [Binary64.scale, hnumerator]
  rfl

/-- What the tests of a fraction come to. -/
theorem fractionPercent?_eq_some_iff : fractionPercent? d = some percentage ↔
    ∃ x scaled, d.nearest = some x ∧ (d.negative = true → x.mantissa = 0) ∧ x.atMost 1 = true ∧
      x.scale 10000 = some scaled ∧
      percentage = (if d.negative then "-" else "") ++ hundredthsText scaled.round ++ "%" := by
  constructor
  · intro h
    obtain ⟨x, hx, h⟩ := Option.bind_eq_some_iff.1 h
    split at h
    · cases h
    · rename_i hchecks
      simp only [Bool.or_eq_true, Bool.and_eq_true, bne_iff_ne, not_or, not_and_or, not_not, Bool.not_eq_true,
        Bool.not_eq_false'] at hchecks
      obtain ⟨scaled, hscaled, h⟩ := Option.bind_eq_some_iff.1 h
      refine ⟨x, scaled, hx, fun hnegative => ?_, hchecks.2, hscaled, (Option.some.inj h).symm⟩
      rw [hnegative] at hchecks
      exact hchecks.1.resolve_left (by simp)
  · rintro ⟨x, scaled, hx, hzero, hatMost, hscaled, rfl⟩
    have hchecks : ¬ ((d.negative && x.mantissa != 0) || !x.atMost 1) = true := by
      rw [hatMost]
      cases hnegative : d.negative with
      | false => simp
      | true => simp [hzero hnegative]
    rw [fractionPercent?, hx, Option.bind_eq_bind, Option.bind_some, if_neg hchecks, hscaled]
    rfl

/-- **Which fractions are accepted**: those between zero and one, and those that rounding takes there. -/
theorem fractionPercent?_isSome_iff :
    (fractionPercent? d).isSome ↔ -2 ^ (-1075 : ℤ) ≤ d.value ∧ d.value ≤ 1 + 2 ^ (-53 : ℤ) := by
  have hroom : (0 : ℚ) < 2 ^ (-1075 : ℤ) := by positivity
  have hroom' : (2 : ℚ) ^ (-1075 : ℤ) ≤ 1 := zpow_le_one_of_nonpos₀ one_le_two (by decide)
  have hslack : (0 : ℚ) < 2 ^ (-53 : ℤ) := by positivity
  have hmagnitude := d.magnitude_nonneg
  have hone := Decimal.atMost_nearest_iff (d := d) (show 2 ^ 0 ≤ 1 by decide) (by decide) (by decide)
  rw [Nat.cast_one, show ((0 : ℕ) : ℤ) - 53 = -53 by rfl] at hone
  have hcases : (fractionPercent? d).isSome ↔
      ∃ x, (d.nearest = some x ∧ x.atMost 1 = true) ∧ (d.negative = true → x.mantissa = 0) := by
    rw [Option.isSome_iff_exists]
    constructor
    · rintro ⟨percentage, h⟩
      obtain ⟨x, scaled, hx, hzero, hatMost, -⟩ := fractionPercent?_eq_some_iff.1 h
      exact ⟨x, ⟨hx, hatMost⟩, hzero⟩
    · rintro ⟨x, ⟨hx, hatMost⟩, hzero⟩
      obtain ⟨scaled, hscaled, -⟩ := exists_scale_of_atMost hatMost
      exact ⟨_, fractionPercent?_eq_some_iff.2 ⟨x, scaled, hx, hzero, hatMost, hscaled, rfl⟩⟩
  rw [hcases, Decimal.value]
  cases hnegative : d.negative with
  | false =>
    simp only [Bool.false_eq_true, false_imp_iff, and_true, if_false, hone]
    exact ⟨fun h => ⟨by linarith, h⟩, fun h => h.2⟩
  | true =>
    simp only [true_imp_iff, if_true]
    constructor
    · rintro ⟨x, ⟨hx, -⟩, hzero⟩
      have hsmall := (Decimal.mantissa_nearest_iff hx).1 hzero
      exact ⟨by linarith, by linarith⟩
    · rintro ⟨hsmall, -⟩
      obtain ⟨x, hx, hatMost⟩ := hone.2 (by linarith)
      exact ⟨x, ⟨hx, hatMost⟩, (Decimal.mantissa_nearest_iff hx).2 (by linarith)⟩

/-- **What is written for a fraction** is between zero and a hundred. -/
theorem exists_percent_of_fractionPercent? (h : fractionPercent? d = some percentage) :
    ∃ q, percentOf? percentage = some q ∧ 0 ≤ q ∧ q ≤ 100 := by
  obtain ⟨x, scaled, -, hzero, hatMost, hscaled, rfl⟩ := fractionPercent?_eq_some_iff.1 h
  cases hnegative : d.negative with
  | false =>
    obtain ⟨scaled', hscaled', hround⟩ := exists_scale_of_atMost hatMost
    obtain rfl := Option.some.inj (hscaled.symm.trans hscaled')
    obtain ⟨q, hparse, hq⟩ := exists_parse?_hundredthsText scaled.round
    have hround : (scaled.round : ℚ) ≤ 10000 := by exact_mod_cast hround
    refine ⟨q.value, ?_, ?_, ?_⟩
    · rw [if_neg (by simp), String.empty_append]
      exact percentOf?_append hparse
    · rw [hq]
      positivity
    · rw [hq]
      linarith
  | true =>
    -- a negative number is accepted if it is rounded to zero, and keeps its sign
    rw [scale_of_mantissa_eq_zero (hzero hnegative)] at hscaled
    cases hscaled
    have htext : hundredthsText Binary64.zero.round = "0" := by decide +kernel
    have hparse : Decimal.parse? "-0" = some ⟨true, 0, 0⟩ := by decide
    have hvalue : (⟨true, 0, 0⟩ : Decimal).value = 0 := by simp [Decimal.value, Decimal.magnitude]
    refine ⟨0, ?_, le_rfl, by norm_num⟩
    rw [if_pos rfl, htext, ← hvalue]
    exact percentOf?_append hparse

end Fractions

/-! ## Spellings -/

/-- The ways to write the number of an opacity. -/
inductive NumericModifier where
  /-- `number`, a number of percent -/
  | percent (number : String)
  /-- `[number%]` -/
  | percentage (number : String)
  /-- `[fraction]`, a fraction of one -/
  | fraction (inner : String)
  deriving DecidableEq, Repr

/-- The number that a plain numeral stands for. -/
def plainValue? (number : String) : Option ℚ :=
  if isPlainNumeral number then (Decimal.parse? number).map Decimal.value else none

namespace NumericModifier

def text : NumericModifier → String
  | percent number => number
  | percentage number => "[" ++ (number ++ "%") ++ "]"
  | fraction inner => "[" ++ inner ++ "]"

/-- The number of percent that is meant, `none` if what should be a numeral is none. -/
def amount? : NumericModifier → Option ℚ
  | percent number => plainValue? number
  | percentage number => plainValue? number
  | fraction inner => (Decimal.parse? inner).map fun d => 100 * d.value

/-- The numbers of percent that are accepted: with rounding, or without any test. -/
def Accepts (p : ℚ) : NumericModifier → Prop
  | percent _ => p ≤ 100 + 2 ^ (-47 : ℤ)
  | percentage _ => True
  | fraction _ => -100 * 2 ^ (-1075 : ℤ) ≤ p ∧ p ≤ 100 + 100 * 2 ^ (-53 : ℤ)

end NumericModifier

section Spellings

variable {number inner percentage : String} {modifier : NumericModifier} {p : ℚ}

theorem opacity?_of_isPlainNumeral (h : isPlainNumeral number = true) : opacity? number = plainOpacity? number := by
  rw [opacity?, if_pos h]

theorem opacity?_brackets (inner : String) : opacity? ("[" ++ inner ++ "]") = bracketedOpacity? inner := by
  have hplain : ¬ isPlainNumeral ("[" ++ inner ++ "]") = true := fun h =>
    absurd (Text.isDigit_or_of_isPlainNumeral h '[' (by simp)) (by decide)
  rw [opacity?, if_neg hplain, Text.enclosed?_append]

theorem bracketedOpacity?_of_isPlainNumeral (h : isPlainNumeral number = true) :
    bracketedOpacity? (number ++ "%") = some (number ++ "%") := by
  rw [bracketedOpacity?, Text.before?_eq_some_iff.2 rfl]
  exact if_pos h

/-- A decimal has no percent sign behind it. -/
theorem bracketedOpacity?_of_parse? {d : Decimal} (h : Decimal.parse? inner = some d) :
    bracketedOpacity? inner = fractionPercent? d := by
  have hbefore : Text.before? "%" inner = none := by
    rw [Option.eq_none_iff_forall_ne_some]
    intro number hnumber
    obtain rfl := Text.eq_append_of_before? hnumber
    exact absurd (isLiteralChar_of_parse? h '%' (by simp)) (by decide)
  rw [bracketedOpacity?, hbefore, h]
  rfl

/-- A plain numeral has no sign. -/
theorem exists_decimal_of_plainValue? (h : plainValue? number = some p) :
    isPlainNumeral number = true ∧ ∃ d, Decimal.parse? number = some d ∧ d.magnitude = p ∧ d.value = p := by
  unfold plainValue? at h
  split at h
  · rename_i hplain
    obtain ⟨d, hparse, hnegative⟩ := exists_parse?_of_isPlainNumeral hplain
    rw [hparse, Option.map_some] at h
    have hvalue : d.value = d.magnitude := by rw [Decimal.value, hnegative, if_neg (by simp)]
    exact ⟨hplain, d, hparse, hvalue.symm.trans (Option.some.inj h), Option.some.inj h⟩
  · cases h

/-- **Which numbers of percent are accepted**: those up to a hundred, and those that rounding takes there. -/
theorem plainOpacity?_isSome_iff {d : Decimal} (h : Decimal.parse? number = some d) :
    (plainOpacity? number).isSome ↔ d.magnitude ≤ 100 + 2 ^ (-47 : ℤ) := by
  have hhundred := Decimal.atMost_nearest_iff (d := d) (show 2 ^ 6 ≤ 100 by decide) (by decide) (by decide)
  rw [show ((6 : ℕ) : ℤ) - 53 = -47 by rfl, Nat.cast_ofNat] at hhundred
  rw [← hhundred, plainOpacity?, Option.isSome_map, numeralValue, h, Option.bind_some, Option.isSome_iff_exists]
  simp only [Option.filter_eq_some_iff]

theorem eq_of_plainOpacity? (h : plainOpacity? number = some percentage) : percentage = number ++ "%" := by
  obtain ⟨_, -, heq⟩ := Option.map_eq_some_iff.1 h
  exact heq.symm

/-- **Which numbers are accepted**, spelling by spelling. -/
theorem NumericModifier.isSome_iff (h : modifier.amount? = some p) :
    (opacity? modifier.text).isSome ↔ modifier.Accepts p := by
  cases modifier with
  | percent number =>
    obtain ⟨hplain, d, hparse, rfl, -⟩ := exists_decimal_of_plainValue? h
    rw [text, opacity?_of_isPlainNumeral hplain, plainOpacity?_isSome_iff hparse, Accepts]
  | percentage number =>
    obtain ⟨hplain, -⟩ := exists_decimal_of_plainValue? h
    rw [text, opacity?_brackets, bracketedOpacity?_of_isPlainNumeral hplain]
    exact iff_of_true rfl trivial
  | fraction inner =>
    obtain ⟨d, hparse, rfl⟩ := Option.map_eq_some_iff.1 h
    rw [text, opacity?_brackets, bracketedOpacity?_of_parse? hparse, fractionPercent?_isSome_iff, Accepts]
    constructor
    · rintro ⟨hlow, hhigh⟩
      exact ⟨by linarith, by linarith⟩
    · rintro ⟨hlow, hhigh⟩
      exact ⟨by linarith, by linarith⟩

/-- **What is written**: the number itself, or for a fraction a percentage in the range. -/
theorem NumericModifier.exists_percent (h : modifier.amount? = some p)
    (hopacity : opacity? modifier.text = some percentage) :
    ∃ q, percentOf? percentage = some q ∧ 0 ≤ q ∧ (q ≤ 100 ↔ p ≤ 100 ∨ ∃ inner, modifier = .fraction inner) := by
  cases modifier with
  | percent number =>
    obtain ⟨hplain, d, hparse, hmagnitude, rfl⟩ := exists_decimal_of_plainValue? h
    rw [text, opacity?_of_isPlainNumeral hplain] at hopacity
    obtain rfl := eq_of_plainOpacity? hopacity
    exact ⟨_, percentOf?_append hparse, hmagnitude ▸ d.magnitude_nonneg, by simp⟩
  | percentage number =>
    obtain ⟨hplain, d, hparse, hmagnitude, rfl⟩ := exists_decimal_of_plainValue? h
    rw [text, opacity?_brackets, bracketedOpacity?_of_isPlainNumeral hplain] at hopacity
    obtain rfl := Option.some.inj hopacity
    exact ⟨_, percentOf?_append hparse, hmagnitude ▸ d.magnitude_nonneg, by simp⟩
  | fraction inner =>
    obtain ⟨d, hparse, rfl⟩ := Option.map_eq_some_iff.1 h
    rw [text, opacity?_brackets, bracketedOpacity?_of_parse? hparse] at hopacity
    obtain ⟨q, hpercent, hlow, hhigh⟩ := exists_percent_of_fractionPercent? hopacity
    exact ⟨q, hpercent, hlow, iff_of_true hhigh (.inr ⟨inner, rfl⟩)⟩

end Spellings

/-! ## Mixed colors -/

/-- The declarations that set a color with an opacity: properties that take a color, or a property with a fallback. -/
inductive Mixes (color percentage : String) : List Declaration → Prop
  | each (properties : List String) : Mixes color percentage (Declaration.each properties (colorMix color percentage))
  | property (name : String) : Mixes color percentage
      [.property name color, .supports colorMixSupport [(name, colorMix color percentage)]]

/-- **Every one of the three kinds of utilities has its opacity behind the last slash.** -/
theorem exists_opacity_of_mixed {theme : Theme} {base : String} {declarations : List Declaration}
    (h : propertyWithOpacity? base = some declarations ∨ colorWithOpacity? base = some declarations ∨
      Compiler.themeColor? theme base = some declarations) :
    (∃ properties name, ColorFamily.split? base = some (properties, name) ∧ theme.colors.contains name = true ∧
      declarations = Declaration.each properties (Palette.reference name)) ∨
      ∃ front modifier color percentage, Text.cutLast? '/' base = some (front, modifier) ∧
        opacity? modifier = some percentage ∧ Mixes color percentage declarations := by
  have hcut {front modifier percentage : String} (hopacity : opacity? modifier = some percentage) :
      Text.cutLast? '/' (front ++ "/" ++ modifier) = some (front, modifier) :=
    Text.cutLast?_append (slash_not_mem_of_opacity? hopacity)
  rcases h with h | h | h
  · obtain ⟨name, raw, modifier, value, percentage, rfl, -, -, -, -, hopacity, rfl⟩ := propertyWithOpacity?_eq_some h
    have hbase : "[--" ++ name ++ ":" ++ raw ++ "]/" ++ modifier =
        "[--" ++ name ++ ":" ++ raw ++ "]" ++ "/" ++ modifier := by
      rw [show "]/" = "]" ++ "/" from rfl]
      simp only [String.append_assoc]
    exact .inr ⟨_, modifier, value, percentage, hbase ▸ hcut hopacity, hopacity, .property _⟩
  · obtain ⟨family, properties, color, modifier, value, percentage, rfl, -, -, -, hopacity, rfl⟩ :=
      colorWithOpacity?_eq_some h
    exact .inr ⟨_, modifier, value, percentage, hcut hopacity, hopacity, .each _⟩
  · obtain ⟨properties, rest, hsplit, ⟨hname, rfl⟩ | ⟨name, percentage, hmodifier, -, rfl⟩⟩ :=
      Compiler.themeColor?_eq_some h
    · exact .inl ⟨properties, rest, hsplit, hname, rfl⟩
    · obtain ⟨family, rfl, -⟩ := split?_eq_some hsplit
      obtain ⟨modifier, rfl, -, hopacity⟩ := splitOpacity?_eq_some hmodifier
      have hbase : family ++ "-" ++ (name ++ "/" ++ modifier) = family ++ "-" ++ name ++ "/" ++ modifier := by
        simp only [String.append_assoc]
      exact .inr ⟨_, modifier, _, percentage, hbase ▸ hcut hopacity, hopacity, .each _⟩

/-- **Which percentages are mixed in.** Colors of the palette, colors of a theme and custom properties take their
opacity from behind the last slash, and they agree on which numbers they accept there. The percentage that they write is
never negative. It is above a hundred exactly if a number of percent above a hundred was written and accepted: without
brackets that is only what rounding takes away, in brackets it is every number. Nothing is mixed where the slash is part
of the name of a color in the theme. -/
theorem percentages_of_mixed_colors {modifier : NumericModifier} {p : ℚ} (hamount : modifier.amount? = some p) :
    ((opacity? modifier.text).isSome ↔ modifier.Accepts p) ∧
    ∀ (theme : Theme) (base front : String) (declarations : List Declaration),
      Text.cutLast? '/' base = some (front, modifier.text) →
      (propertyWithOpacity? base = some declarations ∨ colorWithOpacity? base = some declarations ∨
        Compiler.themeColor? theme base = some declarations) →
      (∃ properties name, ColorFamily.split? base = some (properties, name) ∧ theme.colors.contains name = true ∧
        declarations = Declaration.each properties (Palette.reference name)) ∨
        ∃ color percentage q, opacity? modifier.text = some percentage ∧ Mixes color percentage declarations ∧
          percentOf? percentage = some q ∧ 0 ≤ q ∧ (q ≤ 100 ↔ p ≤ 100 ∨ ∃ inner, modifier = .fraction inner) := by
  refine ⟨modifier.isSome_iff hamount, fun theme base front declarations hbase h => ?_⟩
  rcases exists_opacity_of_mixed h with hbare | ⟨front', text, color, percentage, hcut, hopacity, hmixes⟩
  · exact .inl hbare
  · rw [hbase] at hcut
    obtain ⟨rfl, rfl⟩ := Prod.mk.inj (Option.some.inj hcut)
    obtain ⟨q, hpercent, hlow, hhigh⟩ := modifier.exists_percent hamount hopacity
    exact .inr ⟨color, percentage, q, hopacity, hmixes, hpercent, hlow, hhigh⟩

/-- A fraction of red is accepted, and what is written for it is in the range. -/
theorem bg_red_fraction_is_in_range :
    (opacity? "[0.357]").isSome ∧ ∃ percentage q, opacity? "[0.357]" = some percentage ∧
      percentOf? percentage = some q ∧ 0 ≤ q ∧ q ≤ 100 := by
  have hparse : Decimal.parse? "0.357" = some ⟨false, 357, -3⟩ := by decide +kernel
  have hamount : (NumericModifier.fraction "0.357").amount? = some 35.7 := by
    rw [NumericModifier.amount?, hparse, Option.map_some, Decimal.value, Decimal.magnitude]
    norm_num
  have haccepts : (NumericModifier.fraction "0.357").Accepts 35.7 := by
    have hroom : (0 : ℚ) < 2 ^ (-1075 : ℤ) := by positivity
    have hslack : (0 : ℚ) < 2 ^ (-53 : ℤ) := by positivity
    constructor <;> linarith
  have htext : (NumericModifier.fraction "0.357").text = "[0.357]" := by decide +kernel
  have hcut : Text.cutLast? '/' "bg-red-500/[0.357]" = some ("bg-red-500", "[0.357]") := by decide +kernel
  obtain ⟨declarations, hread⟩ := Option.isSome_iff_exists.1
    (show (colorWithOpacity? "bg-red-500/[0.357]").isSome by decide +kernel)
  obtain ⟨haccepted, hwritten⟩ := percentages_of_mixed_colors hamount
  rw [htext] at haccepted hwritten
  refine ⟨haccepted.2 haccepts, ?_⟩
  rcases hwritten .empty _ _ declarations hcut (.inr (.inl hread)) with ⟨properties, name, -, hname, -⟩ |
    ⟨color, percentage, q, hopacity, -, hpercent, hlow, hhigh⟩
  · cases hname
  · exact ⟨percentage, q, hopacity, hpercent, hlow, hhigh.2 (.inr ⟨"0.357", rfl⟩)⟩

/-- **A percentage in brackets can be more than all.** The color is mixed with 150 percent of itself, so not every
percentage that is written for a number is between zero and a hundred. -/
theorem bg_red_exceeds_one_hundred :
    resolve? "bg-red-500/[150%]" =
      some [.property "background-color" "color-mix(in oklab, var(--color-red-500) 150%, transparent)"] ∧
    (NumericModifier.percentage "150").amount? = some 150 ∧
    ¬ ∀ (base color percentage : String) (declarations : List Declaration) (q : ℚ),
      resolve? base = some declarations → Mixes color percentage declarations → percentOf? percentage = some q →
        0 ≤ q ∧ q ≤ 100 := by
  have hresolved : resolve? "bg-red-500/[150%]" =
      some [.property "background-color" "color-mix(in oklab, var(--color-red-500) 150%, transparent)"] := by
    decide +kernel
  have hmixes : Mixes "var(--color-red-500)" "150%"
      [.property "background-color" "color-mix(in oklab, var(--color-red-500) 150%, transparent)"] :=
    .each ["background-color"]
  have hparse : Decimal.parse? "150" = some ⟨false, 150, 0⟩ := by decide +kernel
  have hvalue : (⟨false, 150, 0⟩ : Decimal).value = 150 := by simp [Decimal.value, Decimal.magnitude]
  refine ⟨hresolved, ?_, fun hall => ?_⟩
  · rw [NumericModifier.amount?, plainValue?, if_pos (by decide +kernel), hparse, Option.map_some, hvalue]
  · have hpercent : percentOf? "150%" = some 150 := by
      have happend := percentOf?_append hparse
      rwa [hvalue] at happend
    have hbound := (hall _ _ _ _ _ hresolved hmixes hpercent).2
    norm_num at hbound

end AtomicCss.Dynamic
