import AtomicCss.Proofs.Dynamic.Containment
import AtomicCss.Proofs.Text.Nesting

/-!
# How the names of dynamic utilities begin

A dynamic utility either stands in square brackets altogether, or it is the name of a family, a dash and a
value. This module takes the readings of `Form.read?` apart and says what each of them makes of the text:
where the family ends, what the family can be, and which of the parts behind it are names or balanced.

## The architecture

* **`knownFamilies`**, **`IsFamily`** — the families that some table lists, and the texts that can stand in
  front of a value.
* **`isFamily_of_assign?`** — what gives declarations to a family.
* **`shape_of_propertyWithOpacity?`** and its kin — one lemma for each form.
* **`opens_of_read?`** — all forms together: an opening bracket, or a family and a dash.
* **`resolve?_of_opensNegative`** — what begins as a negative number is no dynamic utility.
-/

namespace AtomicCss

open Text (isIdentifier isNameChar isAsciiName)

/-! ## Negative numbers -/

namespace Text

/-- Whether a text begins with a dash and a digit. -/
def opensNegative : List Char → Bool
  | '-' :: c :: _ => c.isDigit
  | _ => false

theorem opensNegative_iff {cs : List Char} :
    opensNegative cs = true ↔ ∃ c rest, cs = '-' :: c :: rest ∧ c.isDigit = true := by
  constructor
  · intro h
    unfold opensNegative at h
    split at h
    · rename_i c rest
      exact ⟨c, rest, rfl, h⟩
    · cases h
  · rintro ⟨c, rest, rfl, h⟩
    exact h

theorem not_isAlpha_of_isDigit {c : Char} (h : c.isDigit = true) : c.isAlpha = false := by
  have hbounds : 48 ≤ c.toNat ∧ c.toNat ≤ 57 := Char.isDigit_iff_toNat.1 h
  have hdigits : ∀ n < 58, 48 ≤ n → (Char.ofNat n).isAlpha = false := by decide
  have hdigit := hdigits c.toNat (by omega) hbounds.1
  rwa [Char.ofNat_toNat] at hdigit

/-- A letter is no dash and no digit. -/
theorem opensNegative_of_isAlpha {c : Char} (h : c.isAlpha = true) (cs : List Char) :
    opensNegative (c :: cs) = false ∧ opensNegative ('-' :: c :: cs) = false := by
  have hdash : c ≠ '-' := by
    rintro rfl
    exact absurd h (by decide)
  have hdigit : c.isDigit = false := by
    rw [← Bool.not_eq_true]
    intro hdigit
    rw [not_isAlpha_of_isDigit hdigit] at h
    cases h
  refine ⟨?_, hdigit⟩
  rw [← Bool.not_eq_true, opensNegative_iff]
  rintro ⟨d, rest, heq, -⟩
  exact hdash (List.cons.inj heq).1

end Text

open Text (opensNegative)

namespace Dynamic

/-! ## Families -/

/-- The families that some table lists, and the two that look at the value by themselves. -/
def knownFamilies : List String :=
  ["bg", "font"] ++ ColorFamily.table.map Prod.fst ++ templates.map Prod.fst ++
    typedTemplates.map (fun e => e.1.1) ++
    Catalog.Spacing.families.map Catalog.Spacing.Family.name ++ numericFamilies.map Prod.fst ++
    translations.map Prod.fst

/-- The type hints that some family knows. -/
def hints : List String :=
  typedTemplates.map fun e => e.1.2

/-- Whether a text begins with a letter. -/
def startsWithLetter (s : String) : Bool :=
  s.toList.head?.any Char.isAlpha

theorem knownFamilies_pass :
    (knownFamilies.all fun family => isAsciiName family && startsWithLetter family) = true := by
  decide +kernel

theorem mem_knownFamilies_of_mem_table {family : String} (h : family ∈ ColorFamily.table.map Prod.fst) :
    family ∈ knownFamilies := by
  simp only [knownFamilies, List.mem_append, h, or_true, true_or]

theorem hints_pass : hints.all isAsciiName = true := by decide

theorem isIdentifier_of_mem_knownFamilies {family : String} (h : family ∈ knownFamilies) :
    isIdentifier family = true :=
  Text.isIdentifier_of_isAsciiName (Bool.and_eq_true_iff.1 (List.all_eq_true.1 knownFamilies_pass _ h)).1

/-- A known family begins with a letter. -/
theorem exists_letter_of_mem_knownFamilies {family : String} (h : family ∈ knownFamilies) :
    ∃ c cs, family.toList = c :: cs ∧ c.isAlpha = true := by
  have hletter := (Bool.and_eq_true_iff.1 (List.all_eq_true.1 knownFamilies_pass _ h)).2
  obtain ⟨c, hc, halpha⟩ := (Option.any_eq_true ..).1 hletter
  obtain ⟨cs, hcs⟩ := List.head?_eq_some_iff.1 hc
  exact ⟨c, cs, hcs, halpha⟩

/-- What begins with a known family has no sign. -/
theorem startsWith_dash_of_mem_knownFamilies {family : String} (h : family ∈ knownFamilies) (rest : String) :
    Text.startsWith "-" (family ++ rest) = false := by
  obtain ⟨c, cs, hletter, halpha⟩ := exists_letter_of_mem_knownFamilies h
  have hne : '-' ≠ c := by
    rintro rfl
    cases halpha
  simp [Text.startsWith, List.isPrefixOf, hletter, hne]

theorem isIdentifier_of_mem_hints {hint : String} (h : hint ∈ hints) : isIdentifier hint = true :=
  Text.isIdentifier_of_isAsciiName (List.all_eq_true.1 hints_pass _ h)

/-- What can stand in front of a value: a known family, a known family behind a minus sign, or any name that
has no sign in front. -/
def IsFamily (family : String) : Prop :=
  family ∈ knownFamilies ∨ (∃ known ∈ knownFamilies, family = "-" ++ known) ∨
    (isIdentifier family = true ∧ unsigned? family = none)

theorem IsFamily.isIdentifier {family : String} (h : IsFamily family) : isIdentifier family = true := by
  rcases h with hknown | ⟨known, hknown, rfl⟩ | ⟨hname, -⟩
  · exact isIdentifier_of_mem_knownFamilies hknown
  · exact Text.isIdentifier_append (by decide) (isIdentifier_of_mem_knownFamilies hknown)
  · exact hname

/-- A utility of a known family does not begin as a negative number, with or without a minus sign. -/
theorem not_opensNegative_of_mem {family : String} (h : family ∈ knownFamilies) (rest : String) :
    opensNegative (family ++ rest).toList = false ∧ opensNegative ("-" ++ (family ++ rest)).toList = false := by
  obtain ⟨c, cs, hfamily, halpha⟩ := exists_letter_of_mem_knownFamilies h
  rw [String.toList_append, String.toList_append, String.toList_append, hfamily]
  exact Text.opensNegative_of_isAlpha halpha (cs ++ rest.toList)

/-- **A family and a dash do not begin as a negative number.** -/
theorem IsFamily.not_opensNegative {family : String} (h : IsFamily family) (rest : String) :
    opensNegative (family ++ ("-" ++ rest)).toList = false := by
  rcases h with hknown | ⟨known, hknown, rfl⟩ | ⟨hname, hsign⟩
  · exact (not_opensNegative_of_mem hknown _).1
  · rw [String.append_assoc]
    exact (not_opensNegative_of_mem hknown _).2
  · rw [← Bool.not_eq_true, Text.opensNegative_iff]
    rintro ⟨c, cs, hchars, hdigit⟩
    have hne : ¬ '-' = c := by
      rintro rfl
      exact absurd hdigit (by decide)
    rw [String.toList_append, String.toList_append] at hchars
    cases hfamily : family.toList with
    | nil => exact (Text.isIdentifier_iff.1 hname).1 (String.toList_eq_nil_iff.1 hfamily)
    | cons d ds =>
      rw [hfamily] at hchars
      obtain ⟨rfl, hrest⟩ := List.cons.inj hchars
      cases ds with
      | nil => exact hne (List.cons.inj hrest).1
      | cons d ds =>
        -- a dash is the sign unless another dash follows
        obtain ⟨rfl, -⟩ := List.cons.inj hrest
        have hafter : Text.after? "-" family = some (String.ofList (d :: ds)) := by
          rw [Text.after?, hfamily]
          rfl
        rw [unsigned?, hafter] at hsign
        simp [Option.filter, Text.startsWith, hne] at hsign

section Assignments

variable {family value : String} {declarations : List Declaration}

theorem mem_knownFamilies_of_typed? {hint : String} (h : typed? family hint value = some declarations) :
    family ∈ knownFamilies ∧ hint ∈ hints := by
  obtain ⟨template, hlookup, -⟩ := Option.map_eq_some_iff.1 h
  obtain ⟨⟨key, template⟩, hentry, hkey⟩ := List.mem_map.1 (mem_map_fst_of_lookup hlookup)
  obtain rfl : key = (family, hint) := hkey
  have hfamily : family ∈ typedTemplates.map fun e => e.1.1 := List.mem_map.2 ⟨_, hentry, rfl⟩
  exact ⟨by simp only [knownFamilies, List.mem_append, hfamily, or_true, true_or],
    List.mem_map.2 ⟨_, hentry, rfl⟩⟩

theorem mem_knownFamilies_of_family? {spacing : Catalog.Spacing.Family}
    (h : Catalog.Spacing.family? family = some spacing) : family ∈ knownFamilies := by
  have hmem : family ∈ Catalog.Spacing.families.map Catalog.Spacing.Family.name :=
    List.mem_map.2 ⟨spacing, Catalog.Spacing.mem_families_of_family? h⟩
  simp only [knownFamilies, List.mem_append, hmem, or_true, true_or]

theorem mem_knownFamilies_of_templates {template : Template} (h : templates.lookup family = some template) :
    family ∈ knownFamilies := by
  have hmem := mem_map_fst_of_lookup h
  simp only [knownFamilies, List.mem_append, hmem, or_true, true_or]

theorem mem_knownFamilies_of_negated? (h : negated? family value = some declarations) :
    family ∈ knownFamilies := by
  unfold negated? at h
  split at h
  · rename_i spacing hspacing
    exact mem_knownFamilies_of_family? (Option.filter_eq_some_iff.1 hspacing).1
  · split at h
    · obtain ⟨template, htemplate, -⟩ := Option.map_eq_some_iff.1 h
      exact mem_knownFamilies_of_templates htemplate
    · cases h

theorem mem_knownFamilies_of_sniff? (h : sniff? family value = some declarations) :
    family ∈ knownFamilies := by
  unfold sniff? at h
  split at h
  · rename_i hfamily
    simp [knownFamilies, hfamily]
  · split at h
    · rename_i hfamily
      simp [knownFamilies, hfamily]
    · obtain ⟨properties, hlookup, -⟩ := Option.map_eq_some_iff.1 h
      have hmem := mem_map_fst_of_lookup hlookup
      simp only [knownFamilies, List.mem_append, hmem, or_true, true_or]

/-- A family without a sign is known, or else it names a custom property. -/
theorem isIdentifier_of_plain? (h : plain? family value = some declarations) :
    isIdentifier family = true := by
  rcases Option.or_eq_some_iff.1 h with hsniff | ⟨-, h⟩
  · exact isIdentifier_of_mem_knownFamilies (mem_knownFamilies_of_sniff? hsniff)
  rcases Option.or_eq_some_iff.1 h with htemplate | ⟨-, h⟩
  · obtain ⟨template, htemplate, -⟩ := Option.map_eq_some_iff.1 htemplate
    exact isIdentifier_of_mem_knownFamilies (mem_knownFamilies_of_templates htemplate)
  rcases Option.or_eq_some_iff.1 h with hspacing | ⟨-, hcustom⟩
  · obtain ⟨spacing, hspacing, -⟩ := Option.map_eq_some_iff.1 hspacing
    exact isIdentifier_of_mem_knownFamilies (mem_knownFamilies_of_family? hspacing)
  · unfold customProperty? at hcustom
    split at hcustom
    · cases hcustom
    · rename_i hname
      simpa using hname

/-- **Whatever sets a value has a family in front of it.** -/
theorem isFamily_of_assign? {hint : Option String} (h : assign? family hint value = some declarations) :
    IsFamily family := by
  unfold assign? at h
  split at h
  · exact .inl (mem_knownFamilies_of_typed? h).1
  · split at h
    · rename_i rest hrest
      have hsign := (Option.filter_eq_some_iff.1 hrest).1
      exact .inr (.inl ⟨rest, mem_knownFamilies_of_negated? h, Text.eq_append_of_after? hsign⟩)
    · rename_i hunsigned
      exact .inr (.inr ⟨isIdentifier_of_plain? h, hunsigned⟩)

end Assignments

/-! ## The shapes of the forms -/

section Shapes

variable {base : String} {declarations : List Declaration}

/-- A text that stands for a value is balanced. -/
theorem isBalanced_of_arbitrary? {raw value : String} (h : arbitrary? raw = some value) :
    Text.isBalanced raw = true :=
  (arbitrary?_eq_some_iff.1 h).2.2.1

/-- `[--name:value]/opacity` -/
theorem shape_of_propertyWithOpacity? (h : propertyWithOpacity? base = some declarations) :
    ∃ name raw modifier, base = "[--" ++ name ++ ":" ++ raw ++ "]/" ++ modifier ∧
      isIdentifier name = true ∧ Text.isBalanced raw = true ∧ modifier ≠ "" := by
  obtain ⟨name, raw, modifier, value, percentage, hbase, hname, -, hne, hvalue, -⟩ :=
    propertyWithOpacity?_eq_some h
  exact ⟨name, raw, modifier, hbase, hname, isBalanced_of_arbitrary? hvalue, hne⟩

/-- `family-color/opacity` -/
theorem shape_of_colorWithOpacity? (h : colorWithOpacity? base = some declarations) :
    ∃ family color modifier, base = family ++ "-" ++ color ++ "/" ++ modifier ∧
      family ∈ ColorFamily.table.map Prod.fst ∧ (opaqueColor? color).isSome ∧ modifier ≠ "" := by
  obtain ⟨family, properties, color, modifier, value, percentage, hbase, hmem, hne, hvalue, -⟩ :=
    colorWithOpacity?_eq_some h
  exact ⟨family, color, modifier, hbase, List.mem_map.2 ⟨_, hmem, rfl⟩,
    Option.isSome_iff_exists.2 ⟨_, hvalue⟩, hne⟩

/-- A name and a colon hold no bracket, so without them a text is as balanced as with them. -/
theorem closes_behind_name {name : String} (h : isIdentifier name = true) (cs : List Char) :
    Text.closes '[' ']' 0 (name.toList ++ ':' :: cs) = Text.closes '[' ']' 0 cs := by
  have hplain {c : Char} (hc : isNameChar c = false) : c ∉ name.toList := Text.not_mem_of_isIdentifier h hc
  have hchars : ∀ c ∈ name.toList ++ [':'], c ≠ '[' ∧ c ≠ ']' := by
    intro c hc
    rcases List.mem_append.1 hc with hc | hc
    · exact ⟨fun h => hplain (by decide) (h ▸ hc), fun h => hplain (by decide) (h ▸ hc)⟩
    · obtain rfl := List.mem_singleton.1 hc
      decide
  rw [← Text.closes_append hchars 0 cs, List.append_assoc, List.singleton_append]

/-- A type hint in front of a value is one that some family knows. -/
theorem splitHint_cases (raw : String) :
    splitHint raw = (none, raw) ∨
      ∃ hint value, hint ∈ hints ∧ raw = hint ++ ":" ++ value ∧ splitHint raw = (some hint, value) := by
  unfold splitHint
  split
  · rename_i hint value hcut
    split
    · rename_i hhint
      obtain ⟨entry, hentry, hname⟩ := List.any_eq_true.1 hhint
      exact .inr ⟨hint, value, List.mem_map.2 ⟨entry, hentry, beq_iff_eq.1 hname⟩,
        Text.eq_append_of_cut? hcut, rfl⟩
    · exact .inl rfl
  · exact .inl rfl

/-- Without its type hint a text is as balanced as with it. -/
theorem closes_splitHint (raw : String) :
    Text.closes '[' ']' 0 (splitHint raw).2.toList = Text.closes '[' ']' 0 raw.toList := by
  rcases splitHint_cases raw with hsplit | ⟨hint, value, hmem, hraw, hsplit⟩
  · rw [hsplit]
  · rw [hsplit, hraw, String.toList_append, String.toList_append, List.append_assoc]
    exact (closes_behind_name (isIdentifier_of_mem_hints hmem) value.toList).symm

/-- `[name:value]` and `family-[value]` -/
theorem shape_of_bracketed? (h : bracketed? base = some declarations) :
    (∃ name raw, base = "[" ++ name ++ ":" ++ raw ++ "]" ∧ isIdentifier name = true ∧
      Text.isBalanced raw = true) ∨
    ∃ family rest, base = family ++ "-[" ++ rest ∧ IsFamily family ∧
      Text.closes '[' ']' 0 ((Text.before? "]" rest).getD rest).toList = true := by
  rcases bracketed?_eq_some h with ⟨name, raw, value, hbase, hname, -, hvalue, -⟩ |
    ⟨family, rest, value, hbase, hvalue, h⟩
  · exact .inl ⟨name, raw, hbase, hname, isBalanced_of_arbitrary? hvalue⟩
  · have hbalanced := (Bool.and_eq_true_iff.1 (isBalanced_of_arbitrary? hvalue)).1
    rw [closes_splitHint] at hbalanced
    exact .inr ⟨family, rest, hbase, isFamily_of_assign? h, hbalanced⟩

/-- `family-(--name)` -/
theorem shape_of_parenthesized? (h : parenthesized? base = some declarations) :
    ∃ family name, base = family ++ "-" ++ "(--" ++ name ++ ")" ∧ IsFamily family ∧
      isIdentifier name = true := by
  obtain ⟨family, name, hbase, hname, h⟩ := parenthesized?_eq_some h
  exact ⟨family, name, hbase, isFamily_of_assign? h, hname⟩

/-- `family-(hint:--name)` -/
theorem shape_of_typedParenthesized? (h : typedParenthesized? base = some declarations) :
    ∃ family hint name, base = family ++ "-" ++ "(" ++ hint ++ ":--" ++ name ++ ")" ∧
      family ∈ knownFamilies ∧ isIdentifier hint = true ∧ isIdentifier name = true := by
  obtain ⟨family, hint, name, hbase, hname, h⟩ := typedParenthesized?_eq_some h
  obtain ⟨hfamily, hmem⟩ := mem_knownFamilies_of_typed? h
  exact ⟨family, hint, name, hbase, hfamily, isIdentifier_of_mem_hints hmem, hname⟩

/-- A count is made of digits and plus signs. -/
theorem isDigit_or_of_count? {s : String} {n : Nat} (h : count? s = some n) :
    ∀ c ∈ s.toList, c.isDigit = true ∨ c = '+' := by
  unfold count? at h
  dsimp only at h
  split at h
  · rename_i hchecks
    rw [Bool.and_eq_true, isDigits, Bool.and_eq_true] at hchecks
    have hdigits := List.all_eq_true.1 hchecks.1.2
    cases hafter : Text.after? "+" s with
    | none =>
      rw [hafter] at hdigits
      exact fun c hc => .inl (hdigits c hc)
    | some rest =>
      rw [hafter] at hdigits
      intro c hc
      rw [Text.eq_append_of_after? hafter, String.toList_append, List.mem_append] at hc
      rcases hc with hc | hc
      · exact .inr (List.mem_singleton.1 hc)
      · exact .inl (hdigits c hc)
  · cases h

/-- The step of a spacing family is a plain numeral; a fraction of the whole is made of digits, plus signs
and a slash. -/
theorem shape_of_spacingStep? {family step value : String} {negative : Bool}
    (h : spacingStep? family step negative = some value) :
    isPlainNumeral step = true ∨
      (family ∈ fractional ∧ ∀ c ∈ step.toList, c.isDigit = true ∨ c = '+' ∨ c = '/') := by
  rcases spacingStep?_cases h with
    ⟨left, right, numerator, denominator, rfl, hnumerator, hdenominator, -, hfamily, -⟩ | ⟨hstep, -⟩
  · refine .inr ⟨hfamily, fun c hc => ?_⟩
    rw [String.toList_append, String.toList_append, List.mem_append, List.mem_append] at hc
    rcases hc with (hc | hc) | hc
    · exact (isDigit_or_of_count? hnumerator c hc).imp_right .inl
    · exact .inr (.inr (List.mem_singleton.1 hc))
    · exact (isDigit_or_of_count? hdenominator c hc).imp_right .inl
  · exact .inl hstep

/-- `family-number` -/
theorem shape_of_numeric? (h : numeric? base = some declarations) :
    ∃ sign family step, base = sign ++ family ++ "-" ++ step ∧ (sign = "" ∨ sign = "-") ∧
      family ∈ knownFamilies ∧ (isPlainNumeral step = true ∨
        (family ∈ fractional ∧ ∀ c ∈ step.toList, c.isDigit = true ∨ c = '+' ∨ c = '/')) := by
  obtain ⟨negative, family, step, hbase, h⟩ := numeric?_eq_some h
  refine ⟨signText negative, family, step, hbase, by cases negative <;> simp [signText], ?_⟩
  rcases h with ⟨known, hknown, h⟩ | ⟨-, h⟩
  · have hmem := mem_map_fst_of_lookup hknown
    obtain ⟨-, text, htext, -⟩ := measured?_eq_some h
    exact ⟨by simp only [knownFamilies, List.mem_append, hmem, or_true, true_or],
      .inl (text?_eq_some htext).1⟩
  · obtain ⟨value, hvalue, h⟩ := spaced?_eq_some h
    refine ⟨?_, shape_of_spacingStep? hvalue⟩
    rcases h with ⟨axis, haxis, -⟩ | ⟨spacing, hspacing, -⟩
    · have hmem := mem_map_fst_of_lookup haxis
      simp only [knownFamilies, List.mem_append, hmem, or_true]
    · exact mem_knownFamilies_of_family? hspacing

/-- **A dynamic utility begins with a square bracket, or with a family and a dash.** -/
theorem opens_of_read? {form : Form} (h : form.read? base = some declarations) :
    (∃ rest, base = "[" ++ rest) ∨ ∃ family rest, base = family ++ "-" ++ rest ∧ IsFamily family := by
  cases form with
  | propertyWithOpacity =>
    obtain ⟨name, raw, modifier, hbase, -⟩ := shape_of_propertyWithOpacity? h
    refine .inl ⟨"--" ++ name ++ ":" ++ raw ++ "]/" ++ modifier, ?_⟩
    rw [hbase, show "[--" = "[" ++ "--" from rfl]
    simp only [String.append_assoc]
  | colorWithOpacity =>
    obtain ⟨family, color, modifier, hbase, hfamily, -⟩ := shape_of_colorWithOpacity? h
    refine .inr ⟨family, color ++ "/" ++ modifier, ?_, .inl (mem_knownFamilies_of_mem_table hfamily)⟩
    rw [hbase]
    simp only [String.append_assoc]
  | bracketed =>
    rcases shape_of_bracketed? h with ⟨name, raw, hbase, -⟩ | ⟨family, rest, hbase, hfamily, -⟩
    · refine .inl ⟨name ++ ":" ++ raw ++ "]", ?_⟩
      rw [hbase]
      simp only [String.append_assoc]
    · refine .inr ⟨family, "[" ++ rest, ?_, hfamily⟩
      rw [hbase, show "-[" = "-" ++ "[" from rfl]
      simp only [String.append_assoc]
  | parenthesized =>
    obtain ⟨family, name, hbase, hfamily, -⟩ := shape_of_parenthesized? h
    refine .inr ⟨family, "(--" ++ name ++ ")", ?_, hfamily⟩
    rw [hbase]
    simp only [String.append_assoc]
  | numeric =>
    obtain ⟨sign, family, step, hbase, hsign, hfamily, -⟩ := shape_of_numeric? h
    refine .inr ⟨sign ++ family, step, hbase, ?_⟩
    rcases hsign with rfl | rfl
    · rw [String.empty_append]
      exact .inl hfamily
    · exact .inr (.inl ⟨family, hfamily, rfl⟩)
  | typedParenthesized =>
    obtain ⟨family, hint, name, hbase, hfamily, -⟩ := shape_of_typedParenthesized? h
    refine .inr ⟨family, "(" ++ hint ++ ":--" ++ name ++ ")", ?_, .inl hfamily⟩
    rw [hbase]
    simp only [String.append_assoc]

/-- **No dynamic utility begins as a negative number.** -/
theorem resolve?_of_opensNegative (h : opensNegative base.toList = true) : resolve? base = none := by
  rw [Option.eq_none_iff_forall_ne_some]
  intro declarations hresolve
  obtain ⟨form, -, hform⟩ := exists_form_of_resolve? hresolve
  rcases opens_of_read? hform with ⟨rest, rfl⟩ | ⟨family, rest, rfl, hfamily⟩
  · rw [String.toList_append] at h
    cases h
  · rw [String.append_assoc, hfamily.not_opensNegative] at h
    cases h

/-- A utility that takes a color does not begin as a negative number either. -/
theorem split?_of_opensNegative (h : opensNegative base.toList = true) :
    ColorFamily.split? base = none := by
  rw [ColorFamily.split?, List.findSome?_eq_none_iff]
  rintro ⟨family, properties⟩ hfamily
  rw [Option.map_eq_none_iff, Option.eq_none_iff_forall_ne_some]
  intro rest hrest
  have hknown := mem_knownFamilies_of_mem_table (List.mem_map.2 ⟨_, hfamily, rfl⟩)
  rw [Text.eq_append_of_after? hrest, String.append_assoc, (not_opensNegative_of_mem hknown _).1] at h
  cases h

end Shapes

end Dynamic

end AtomicCss
