import AtomicCss.Proofs.Dynamic.Composition
import AtomicCss.Proofs.Dynamic.Filling
import AtomicCss.Proofs.Text.Authored

/-!
# Blank values

Text in brackets may not be blank, but this is asked before its underscores are read as spaces. So underscores by
themselves pass, and what they stand for is blank. Nothing else that a dynamic utility can carry is blank, so all
utilities that set a blank value can be listed (`SetsBlank`): they have brackets around underscores and blanks, and the
family puts no other text around its value.

## The architecture

* **`IsUnderscored`**, **`isAllBlank_iff_of_arbitrary?`** — which authored texts stand for a blank value.
* **`exists_isAllBlank_fill_iff`** — a template sets a blank value exactly if the value is blank and stands alone
  somewhere.
* **`exists_isAllBlank_assign?_iff`**, **`exists_isAllBlank_typed?_iff`** — the families that put text around a blank
  value are those of `wrapping`, and the width of a ring.
* **`SetsBlank.exists_resolve?`**, **`setsBlank_of_read?`** — each utility of the list sets a blank value, and no form
  sets one outside of it.
* **`exists_isAllBlank_iff`** — the utilities that set a blank value are those of `SetsBlank`.
-/

namespace AtomicCss.Dynamic

open Text (isIdentifier isAllBlank isBlank)

variable {base family value : String} {declarations : List Declaration}

/-- The values that declarations set, those of `@supports` blocks among them. -/
def values (declarations : List Declaration) : List String :=
  declarations.flatMap fun declaration => declaration.properties.map Prod.snd

/-! ## Underscores -/

/-- A text of blanks and underscores, with one underscore at least. -/
def IsUnderscored (raw : String) : Prop :=
  '_' ∈ raw.toList ∧ ∀ c ∈ raw.toList, isBlank c = true ∨ c = '_'

theorem IsUnderscored.not_mem {raw : String} (h : IsUnderscored raw) {c : Char} (hink : isBlank c = false)
    (hne : c ≠ '_') : c ∉ raw.toList := fun hc => by
  have hblank := (h.2 c hc).resolve_right hne
  rw [hink] at hblank
  cases hblank

theorem isAllBlank_meaning_iff {raw : String} :
    isAllBlank (meaning raw) = true ↔ ∀ c ∈ raw.toList, isBlank c = true ∨ c = '_' := by
  unfold meaning
  split
  · rename_i haddress
    obtain ⟨rest, rfl⟩ := Text.startsWith_iff.1 haddress
    have hmem : 'u' ∈ ("url(" ++ rest).toList := by simp
    exact iff_of_false (fun h => absurd (List.all_eq_true.1 h 'u' hmem) (by decide))
      (fun h => absurd (h 'u' hmem) (by decide))
  · rw [isAllBlank, Text.decodeSpaces, String.toList_ofList, List.all_eq_true]
    exact Text.isBlank_decodeChars_iff

/-- **What stands for a blank value** is made of blanks and underscores. -/
theorem isAllBlank_iff_of_arbitrary? {raw : String} (h : arbitrary? raw = some value) :
    isAllBlank value = true ↔ IsUnderscored raw := by
  obtain ⟨hink, -, -, rfl⟩ := arbitrary?_eq_some_iff.1 h
  rw [isAllBlank_meaning_iff]
  refine ⟨fun hchars => ⟨?_, hchars⟩, And.right⟩
  -- the text itself is not blank, so one of its characters is an underscore
  obtain ⟨c, hc, hnot⟩ := List.all_eq_false.1 hink
  obtain rfl := (hchars c hc).resolve_left hnot
  exact hc

theorem IsUnderscored.exists_arbitrary? {raw : String} (h : IsUnderscored raw) :
    ∃ value, arbitrary? raw = some value ∧ isAllBlank value = true := by
  have hvalue : arbitrary? raw = some (meaning raw) := by
    refine arbitrary?_eq_some_iff.2 ⟨List.all_eq_false.2 ⟨'_', h.1, by decide⟩, ?_, ?_, rfl⟩
    · rw [Text.breaksOut_eq_false_iff]
      intro c hc
      rcases h.2 c hc with hblank | rfl
      · rw [← Bool.not_eq_true]
        intro hdelimiter
        simp only [Text.isDelimiter, Bool.or_eq_true, beq_iff_eq] at hdelimiter
        rcases hdelimiter with (rfl | rfl) | rfl <;> exact absurd hblank (by decide)
      · decide
    · refine (Text.nested_of_forall fun c hc => ?_).isBalanced
      rcases h.2 c hc with hblank | rfl
      · exact Text.isBracket_of_test rfl hblank
      · decide
  exact ⟨_, hvalue, (isAllBlank_iff_of_arbitrary? hvalue).2 h⟩

/-! ## Templates -/

/-- Whether a slot has a place for the value or ink of its own. -/
def Slot.isInked (slot : Slot) : Bool :=
  decide (2 ≤ slot.pieces.length) || !isAllBlank (String.join slot.pieces)

/-- Whether a slot has no ink of its own. -/
def Slot.isBare (slot : Slot) : Bool :=
  isAllBlank (String.join slot.pieces)

theorem isAllBlank_intercalate (value : String) (pieces : List String) :
    isAllBlank (value.intercalate pieces) =
      (isAllBlank (String.join pieces) && (decide (pieces.length < 2) || isAllBlank value)) := by
  induction pieces with
  | nil => rfl
  | cons piece pieces ih =>
    cases pieces with
    | nil => simp
    | cons next pieces =>
      rw [String.intercalate_cons_cons, Text.isAllBlank_append, Text.isAllBlank_append, ih, String.join_cons,
        Text.isAllBlank_append]
      cases isAllBlank value <;> simp

theorem isAllBlank_slot {slot : Slot} (h : slot.isInked = true) (value : String) :
    isAllBlank (value.intercalate slot.pieces) = (slot.isBare && isAllBlank value) := by
  rw [isAllBlank_intercalate, Slot.isBare]
  rw [Slot.isInked, Bool.or_eq_true, decide_eq_true_eq, Bool.not_eq_true'] at h
  rcases h with hplace | hink
  · rw [decide_eq_false (Nat.not_lt.2 hplace), Bool.false_or]
  · rw [hink, Bool.false_and, Bool.false_and]

theorem values_fill (template : Template) (value : String) :
    values (template.fill value) = template.map fun slot => value.intercalate slot.pieces := by
  rw [values, Template.fill, List.flatMap_map]
  exact List.map_eq_flatMap.symm

/-- **A template sets a blank value** exactly if the value is blank and stands alone somewhere. -/
theorem exists_isAllBlank_fill_iff {template : Template} (h : template.all Slot.isInked = true) :
    (∃ v ∈ values (template.fill value), isAllBlank v = true) ↔
      isAllBlank value = true ∧ template.any Slot.isBare = true := by
  have hslot {slot : Slot} (hmem : slot ∈ template) := isAllBlank_slot (List.all_eq_true.1 h slot hmem) value
  rw [values_fill, List.any_eq_true]
  constructor
  · rintro ⟨v, hv, hblank⟩
    obtain ⟨slot, hmem, rfl⟩ := List.mem_map.1 hv
    rw [hslot hmem, Bool.and_eq_true] at hblank
    exact ⟨hblank.2, slot, hmem, hblank.1⟩
  · rintro ⟨hblank, slot, hmem, hbare⟩
    refine ⟨_, List.mem_map_of_mem hmem, ?_⟩
    rw [hslot hmem, hbare, hblank]
    rfl

theorem isInked_each (names : List String) : (Template.each names).all Slot.isInked = true := by
  rw [Template.each, List.all_map]
  exact List.all_eq_true.2 fun name _ => rfl

theorem any_isBare_each {names : List String} (hne : names ≠ []) :
    (Template.each names).any Slot.isBare = true := by
  obtain ⟨name, names, rfl⟩ := List.exists_cons_of_ne_nil hne
  rfl

theorem allTemplates_inked : (allTemplates.all fun template => template.all Slot.isInked) = true := by decide +kernel

theorem Template.IsListed.isInked {template : Template} (h : template.IsListed) :
    template.all Slot.isInked = true := by
  rcases h with hmem | ⟨names, -, -, rfl⟩
  · exact List.all_eq_true.1 allTemplates_inked template hmem
  · exact isInked_each names

/-- Where a value with ink is put, it can be seen. -/
theorem Fills.ink (h : Fills value declarations) (hink : isAllBlank value = false) :
    ¬ ∃ v ∈ values declarations, isAllBlank v = true := by
  obtain ⟨template, hlisted, rfl⟩ := h
  rw [exists_isAllBlank_fill_iff hlisted.isInked, hink]
  exact fun h => Bool.false_ne_true h.1

/-! ## Families -/

/-- The families that put other text around every blank value. -/
def wrapping : List String :=
  ["blur", "brightness", "backdrop-blur", "ring"]

/-- A width of a ring is put into a shadow as well. -/
def ringWidth : String × String :=
  ("ring", "length")

/-- Whether a template has other text around its value exactly if its family is one of `wrapping`. -/
def wrapsByName (entry : String × Template) : Bool :=
  entry.2.all Slot.isInked && entry.2.any Slot.isBare == !wrapping.contains entry.1

theorem templates_wrap : templates.all wrapsByName = true := by decide +kernel

theorem widths_wrap : widths.all wrapsByName = true := by decide +kernel

theorem typedTemplates_wrap : (typedTemplates.all fun entry =>
    entry.2.all Slot.isInked && entry.2.any Slot.isBare == (entry.1 != ringWidth)) = true := by
  decide +kernel

theorem spacingFamilies_bare :
    (Catalog.Spacing.families.all fun spacing => !wrapping.contains spacing.name) = true := by
  decide

theorem colorFamilies_bare : (ColorFamily.table.all fun entry =>
    !wrapping.contains entry.1 || (widths.lookup entry.1).isSome) = true := by
  decide

theorem wrapping_known : (wrapping.all fun family =>
    (ColorFamily.table.lookup family).isSome || (templates.lookup family).isSome) = true := by
  decide

/-- Declarations that fill a template, which has other text around the value exactly if the family is one of
`wrapping`. -/
def FillsAs (family value : String) (declarations : List Declaration) : Prop :=
  ∃ template : Template, template.all Slot.isInked = true ∧
    template.any Slot.isBare = !wrapping.contains family ∧ declarations = template.fill value

theorem fillsAs_of_table {table : List (String × Template)} (htable : table.all wrapsByName = true)
    {template : Template} (h : table.lookup family = some template) :
    FillsAs family value (template.fill value) := by
  have hpass := List.all_eq_true.1 htable _ (mem_of_lookup h)
  rw [wrapsByName, Bool.and_eq_true, beq_iff_eq] at hpass
  exact ⟨template, hpass.1, hpass.2, rfl⟩

theorem fillsAs_each {names : List String} (hne : names ≠ []) (hfamily : wrapping.contains family = false) :
    FillsAs family value (Declaration.each names value) :=
  ⟨Template.each names, isInked_each names, by rw [any_isBare_each hne, hfamily]; rfl, each_eq_fill names value⟩

theorem fillsAs_property (name : String) (hfamily : wrapping.contains family = false) :
    FillsAs family value [.property name value] :=
  fillsAs_each (List.cons_ne_nil name []) hfamily

/-- A blank value is no color. -/
theorem isColorValue_of_isAllBlank (h : isAllBlank value = true) : isColorValue value = false := by
  have htrim : Text.trim value = "" := by
    have hstart : value.toList.dropWhile isBlank = [] := List.dropWhile_eq_nil_iff.2 (List.all_eq_true.1 h)
    rw [Text.trim, Text.trimStart, hstart]
    rfl
  have hreference : Text.startsWith "var(" value = false := by
    rw [← Bool.not_eq_true, Text.startsWith_iff]
    rintro ⟨rest, rfl⟩
    exact absurd (List.all_eq_true.1 h 'v' (by simp)) (by decide)
  rw [isColorValue, isColorLike, htrim, hreference]
  decide

theorem fillsAs_of_sniff? (hblank : isAllBlank value = true) (h : sniff? family value = some declarations) :
    FillsAs family value declarations := by
  unfold sniff? at h
  split at h
  · rename_i hfamily
    cases h
    exact fillsAs_property _ (hfamily ▸ by decide)
  · split at h
    · rename_i hfamily
      cases h
      exact fillsAs_property _ (hfamily ▸ by decide)
    · obtain ⟨properties, hlookup, rfl⟩ := Option.map_eq_some_iff.1 h
      have hmem := mem_of_lookup hlookup
      rw [sniffColor, isColorValue_of_isAllBlank hblank, if_neg Bool.false_ne_true]
      split
      · rename_i template hwidth
        exact fillsAs_of_table widths_wrap hwidth
      · rename_i hwidth
        -- only a ring has other text around its value, and it has a width
        have hbare := List.all_eq_true.1 colorFamilies_bare _ hmem
        rw [hwidth, Option.isSome_none, Bool.or_false, Bool.not_eq_true'] at hbare
        have hne := List.all_eq_true.1 colorFamilies_pass _ hmem
        exact fillsAs_each (by simpa using hne) hbare

/-- **What a family without a sign does with a blank value.** -/
theorem fillsAs_of_plain? (hblank : isAllBlank value = true) (h : plain? family value = some declarations) :
    FillsAs family value declarations := by
  rcases Option.or_eq_some_iff.1 h with hsniff | ⟨hsniff, h⟩
  · exact fillsAs_of_sniff? hblank hsniff
  rcases Option.or_eq_some_iff.1 h with htemplate | ⟨htemplate, h⟩
  · obtain ⟨template, hlookup, rfl⟩ := Option.map_eq_some_iff.1 htemplate
    exact fillsAs_of_table templates_wrap hlookup
  rcases Option.or_eq_some_iff.1 h with hspacing | ⟨-, hcustom⟩
  · obtain ⟨spacing, hfamily, rfl⟩ := Option.map_eq_some_iff.1 hspacing
    obtain ⟨hmem, rfl⟩ := Catalog.Spacing.mem_families_of_family? hfamily
    have hne := List.all_eq_true.1 spacingFamilies_pass _ hmem
    have hbare := List.all_eq_true.1 spacingFamilies_bare _ hmem
    exact fillsAs_each (by simpa using hne) (by simpa using hbare)
  · -- the families of `wrapping` have been found before
    have hbare : wrapping.contains family = false := by
      rw [← Bool.not_eq_true, List.contains_iff_mem]
      intro hmem
      have hknown := List.all_eq_true.1 wrapping_known _ hmem
      rw [Option.map_eq_none_iff] at htemplate
      rw [htemplate, Option.isSome_none, Bool.or_false] at hknown
      unfold sniff? at hsniff
      split at hsniff
      · cases hsniff
      · split at hsniff
        · cases hsniff
        · rw [Option.map_eq_none_iff.1 hsniff] at hknown
          cases hknown
    unfold customProperty? at hcustom
    split at hcustom
    · cases hcustom
    · split at hcustom
      · cases hcustom
        exact fillsAs_property _ hbare
      · cases hcustom
        exact fillsAs_property _ hbare

theorem isAllBlank_negation (value : String) : isAllBlank (negation value) = false := by
  have hink : isAllBlank "calc(" = false := by decide
  rw [negation, Text.isAllBlank_append, Text.isAllBlank_append, hink, Bool.false_and, Bool.false_and]

/-- **A family sets a blank value** if the value is blank, has no sign in front and no text around it. -/
theorem exists_isAllBlank_assign?_iff (h : assign? family none value = some declarations) :
    (∃ v ∈ values declarations, isAllBlank v = true) ↔
      isAllBlank value = true ∧ unsigned? family = none ∧ family ∉ wrapping := by
  cases hink : isAllBlank value with
  | false =>
    refine iff_of_false ?_ fun h => Bool.false_ne_true h.1
    rcases fills_of_assign? h with hfills | hfills
    · exact hfills.ink hink
    · exact hfills.ink (isAllBlank_negation value)
  | true =>
    unfold assign? at h
    cases hsign : unsigned? family with
    | some known =>
      simp only [hsign] at h
      exact iff_of_false ((fills_of_negated? h).ink (isAllBlank_negation value)) (by simp)
    | none =>
      simp only [hsign] at h
      obtain ⟨template, hinked, hbare, rfl⟩ := fillsAs_of_plain? hink h
      rw [exists_isAllBlank_fill_iff hinked, hink, hbare, Bool.not_eq_true', ← Bool.not_eq_true, List.contains_iff_mem]
      simp

/-- **A type hint sets a blank value** if the value is blank, unless it is the width of a ring. -/
theorem exists_isAllBlank_typed?_iff {hint : String} (h : typed? family hint value = some declarations) :
    (∃ v ∈ values declarations, isAllBlank v = true) ↔
      isAllBlank value = true ∧ (family, hint) ≠ ringWidth := by
  obtain ⟨template, hlookup, rfl⟩ := Option.map_eq_some_iff.1 h
  have hpass := List.all_eq_true.1 typedTemplates_wrap _ (mem_of_lookup hlookup)
  rw [Bool.and_eq_true, beq_iff_eq] at hpass
  rw [exists_isAllBlank_fill_iff hpass.1, hpass.2, bne_iff_ne]

/-! ## Values with ink -/

/-- What begins with ink has ink. -/
theorem isAllBlank_append_of_ink {s : String} (h : isAllBlank s = false) (t : String) :
    isAllBlank (s ++ t) = false := by
  rw [Text.isAllBlank_append, h, Bool.false_and]

theorem isAllBlank_reference (name : String) : isAllBlank ("var(--" ++ name ++ ")") = false := by
  rw [String.append_assoc]
  exact isAllBlank_append_of_ink (by decide) _

theorem isAllBlank_colorMix (color percentage : String) : isAllBlank (colorMix color percentage) = false := by
  unfold colorMix
  simp only [String.append_assoc]
  exact isAllBlank_append_of_ink (by decide) _

/-- A plain numeral has ink. -/
theorem isAllBlank_of_isPlainNumeral {number : String} (h : isPlainNumeral number = true) :
    isAllBlank number = false := by
  cases hchars : number.toList with
  | nil =>
    obtain rfl := String.toList_eq_nil_iff.1 hchars
    exact absurd h (by decide)
  | cons c cs =>
    refine List.all_eq_false.2 ⟨c, hchars ▸ List.mem_cons_self, ?_⟩
    rcases Text.isDigit_or_of_isPlainNumeral h c (hchars ▸ List.mem_cons_self) with hdigit | rfl
    · have hbounds : 48 ≤ c.toNat ∧ c.toNat ≤ 57 := Char.isDigit_iff_toNat.1 hdigit
      simp [Text.isBlank, Text.blankRanges]
      omega
    · decide

/-- A step is inside of `calc` in either case. -/
theorem isAllBlank_of_spacingStep? {step : String} {negative : Bool}
    (h : spacingStep? family step negative = some value) : isAllBlank value = false := by
  rcases spacingStep?_cases h with ⟨left, right, numerator, denominator, -, -, -, -, -, rfl⟩ | ⟨-, rfl⟩
  · simp only [String.append_assoc]
    exact isAllBlank_append_of_ink (by decide) _
  · unfold Catalog.spacingValue
    simp only [String.append_assoc]
    exact isAllBlank_append_of_ink (by decide) _

/-! ## The utilities -/

/-- The utilities that set a blank value. -/
inductive SetsBlank : String → Prop
  /-- A property and a value. -/
  | property {name raw : String} (hname : isIdentifier name = true) (hstart : Text.startsWith "_" name = false)
      (hraw : IsUnderscored raw) : SetsBlank ("[" ++ name ++ ":" ++ raw ++ "]")
  /-- A custom property and a value with an opacity. -/
  | propertyWithOpacity {name raw modifier percentage : String} (hname : isIdentifier name = true)
      (hraw : IsUnderscored raw) (hline : '\n' ∉ raw.toList) (hopacity : opacity? modifier = some percentage) :
      SetsBlank ("[--" ++ name ++ ":" ++ raw ++ "]/" ++ modifier)
  /-- A family that has no sign and puts no other text around a value. -/
  | family {family raw : String} (hname : isIdentifier family = true)
      (hsign : Text.startsWith "-" family = true → Text.startsWith "--" family = true) (hbare : family ∉ wrapping)
      (hraw : IsUnderscored raw) : SetsBlank (family ++ "-[" ++ raw ++ "]")
  /-- A family with one of its type hints, which is not the width of a ring. -/
  | typed {family hint raw : String} (hhint : (family, hint) ∈ typedTemplates.map Prod.fst)
      (hbare : (family, hint) ≠ ringWidth) (hraw : IsUnderscored raw) :
      SetsBlank (family ++ "-[" ++ hint ++ ":" ++ raw ++ "]")

/-- Somewhere in a text stands an opening bracket or a colon, a closing bracket, and between them nothing but blanks
and underscores. -/
def IsHollow (base : String) : Prop :=
  ∃ front opener raw back, base = front ++ opener ++ raw ++ "]" ++ back ∧ (opener = "[" ∨ opener = ":") ∧
    '_' ∈ raw.toList ∧ ∀ c ∈ raw.toList, isBlank c = true ∨ c = '_'

/-- Whatever the family does, a blank value can be seen from the text alone. -/
theorem SetsBlank.isHollow (h : SetsBlank base) : IsHollow base := by
  cases h with
  | @property name raw _ _ hraw =>
    exact ⟨"[" ++ name, ":", raw, "", by rw [String.append_empty], .inr rfl, hraw⟩
  | @propertyWithOpacity name raw modifier _ _ hraw _ _ =>
    refine ⟨"[--" ++ name, ":", raw, "/" ++ modifier, ?_, .inr rfl, hraw⟩
    rw [show "]/" = "]" ++ "/" from rfl]
    simp only [String.append_assoc]
  | @family family raw _ _ _ hraw =>
    refine ⟨family ++ "-", "[", raw, "", ?_, .inl rfl, hraw⟩
    rw [show "-[" = "-" ++ "[" from rfl, String.append_empty]
    simp only [String.append_assoc]
  | @typed family hint raw _ _ hraw =>
    exact ⟨family ++ "-[" ++ hint, ":", raw, "", by rw [String.append_empty], .inr rfl, hraw⟩

theorem unsigned?_eq_none_iff :
    unsigned? family = none ↔ (Text.startsWith "-" family = true → Text.startsWith "--" family = true) := by
  rw [unsigned?, Option.filter_eq_none_iff, Text.startsWith_iff, Text.startsWith_iff]
  constructor
  · rintro h ⟨rest, rfl⟩
    have hrest := h rest (Text.after?_eq_some_iff.2 rfl)
    rw [Bool.not_eq_true', Bool.not_eq_false, Text.startsWith_iff] at hrest
    obtain ⟨rest, rfl⟩ := hrest
    exact ⟨rest, by rw [← String.append_assoc]; rfl⟩
  · intro h rest hrest
    obtain ⟨rest', hfamily⟩ := h ⟨rest, Text.after?_eq_some_iff.1 hrest⟩
    rw [Text.after?_eq_some_iff.1 hrest, show "--" = "-" ++ "-" from rfl, String.append_assoc,
      String.append_right_inj] at hfamily
    rw [Bool.not_eq_true', Bool.not_eq_false, Text.startsWith_iff]
    exact ⟨rest', hfamily⟩

theorem isSome_plain? (h : isIdentifier family = true) (value : String) : (plain? family value).isSome = true := by
  have hcustom : (customProperty? family value).isSome = true := by
    rw [customProperty?, h]
    split
    · rename_i hfalse
      cases hfalse
    · split <;> rfl
  simp only [plain?, Option.isSome_or, hcustom, Bool.or_true]

/-- The utilities of the list are utilities, and set a blank value. -/
theorem SetsBlank.exists_resolve? (h : SetsBlank base) :
    ∃ declarations, resolve? base = some declarations ∧ ∃ v ∈ values declarations, isAllBlank v = true := by
  cases h with
  | property hname hstart hraw =>
    obtain ⟨value, hvalue, hblank⟩ := hraw.exists_arbitrary?
    exact ⟨_, resolve?_property hname hstart hvalue, value, List.mem_singleton_self value, hblank⟩
  | propertyWithOpacity hname hraw hline hopacity =>
    obtain ⟨value, hvalue, hblank⟩ := hraw.exists_arbitrary?
    exact ⟨_, resolve?_propertyWithOpacity hname hline hvalue hopacity, value, List.mem_cons_self, hblank⟩
  | @family family raw hname hsign hbare hraw =>
    obtain ⟨value, hvalue, hblank⟩ := hraw.exists_arbitrary?
    have hunsigned := unsigned?_eq_none_iff.2 hsign
    obtain ⟨declarations, hplain⟩ := Option.isSome_iff_exists.1 (isSome_plain? hname value)
    have hassign : assign? family none value = some declarations := by rw [assign?, hunsigned, hplain]
    have hcolon : ':' ∉ raw.toList := hraw.not_mem (by decide) (by decide)
    exact ⟨declarations, resolve?_bracketed hname (splitHint_of_not_mem hcolon) hvalue hassign,
      (exists_isAllBlank_assign?_iff hassign).2 ⟨hblank, hunsigned, hbare⟩⟩
  | @typed family hint raw hhint hbare hraw =>
    obtain ⟨value, hvalue, hblank⟩ := hraw.exists_arbitrary?
    obtain ⟨template, hlookup⟩ := Option.ne_none_iff_exists'.1 (lookup_ne_none_of_mem hhint)
    have htyped : typed? family hint value = some (template.fill value) := by rw [typed?, hlookup]; rfl
    obtain ⟨hfamily, hmem⟩ := mem_knownFamilies_of_typed? htyped
    have hresolved := resolve?_bracketed (isIdentifier_of_mem_knownFamilies hfamily) (splitHint_append hmem raw) hvalue
      htyped
    refine ⟨_, ?_, (exists_isAllBlank_typed?_iff htyped).2 ⟨hblank, hbare⟩⟩
    rw [← hresolved]
    simp only [String.append_assoc]

/-- `[--name:value]/opacity` -/
theorem setsBlank_of_propertyWithOpacity? (h : propertyWithOpacity? base = some declarations)
    (hblank : ∃ v ∈ values declarations, isAllBlank v = true) : SetsBlank base := by
  obtain ⟨name, raw, modifier, value, percentage, rfl, hname, hline, -, hvalue, hopacity, rfl⟩ :=
    propertyWithOpacity?_eq_some h
  obtain ⟨v, hv, hblank⟩ := hblank
  change v ∈ [value, colorMix value percentage] at hv
  rw [List.mem_cons, List.mem_singleton] at hv
  rcases hv with rfl | rfl
  · exact .propertyWithOpacity hname ((isAllBlank_iff_of_arbitrary? hvalue).1 hblank) hline hopacity
  · rw [isAllBlank_colorMix] at hblank
    cases hblank

/-- `[name:value]` and `family-[value]` -/
theorem setsBlank_of_bracketed? (hfits : Form.bracketed.fits base = true) (h : bracketed? base = some declarations)
    (hblank : ∃ v ∈ values declarations, isAllBlank v = true) : SetsBlank base := by
  rcases bracketed?_cases hfits h with ⟨name, raw, value, rfl, hname, hstart, hvalue, rfl⟩ |
    ⟨family, inner, value, rfl, hvalue, hassign⟩
  · obtain ⟨v, hv, hblank⟩ := hblank
    obtain rfl := List.mem_singleton.1 hv
    exact .property hname hstart ((isAllBlank_iff_of_arbitrary? hvalue).1 hblank)
  · have hname := (isFamily_of_assign? hassign).isIdentifier
    rcases splitHint_cases inner with hsplit | ⟨hint, raw, -, rfl, hsplit⟩
    · rw [hsplit] at hvalue hassign
      obtain ⟨hvalueBlank, hsign, hbare⟩ := (exists_isAllBlank_assign?_iff hassign).1 hblank
      exact .family hname (unsigned?_eq_none_iff.1 hsign) hbare ((isAllBlank_iff_of_arbitrary? hvalue).1 hvalueBlank)
    · rw [hsplit] at hvalue hassign
      obtain ⟨hvalueBlank, hbare⟩ := (exists_isAllBlank_typed?_iff hassign).1 hblank
      obtain ⟨template, hlookup, -⟩ := Option.map_eq_some_iff.1 hassign
      have hmem := mem_map_fst_of_lookup hlookup
      have hbase := SetsBlank.typed hmem hbare ((isAllBlank_iff_of_arbitrary? hvalue).1 hvalueBlank)
      simpa only [String.append_assoc] using hbase

/-- All other forms set values with ink. -/
theorem setsBlank_of_read? {form : Form} (hfits : form.fits base = true) (h : form.read? base = some declarations)
    (hblank : ∃ v ∈ values declarations, isAllBlank v = true) : SetsBlank base := by
  cases form with
  | propertyWithOpacity => exact setsBlank_of_propertyWithOpacity? h hblank
  | colorWithOpacity =>
    obtain ⟨family, properties, color, modifier, value, percentage, -, hmem, -, -, -, rfl⟩ :=
      colorWithOpacity?_eq_some h
    have hfills : Fills (colorMix value percentage) (Declaration.each properties (colorMix value percentage)) :=
      ⟨_, isListed_of_mem_table hmem, each_eq_fill _ _⟩
    exact absurd hblank (hfills.ink (isAllBlank_colorMix value percentage))
  | bracketed => exact setsBlank_of_bracketed? hfits h hblank
  | parenthesized =>
    obtain ⟨family, name, -, -, hassign⟩ := parenthesized?_eq_some h
    have hvalue := ((exists_isAllBlank_assign?_iff hassign).1 hblank).1
    rw [isAllBlank_reference] at hvalue
    cases hvalue
  | numeric =>
    rcases fills_of_numeric? h with ⟨negative, step, measure, hstep, hfills⟩ |
      ⟨family, step, negative, value, hvalue, hfills⟩
    · refine absurd hblank (hfills.ink ?_)
      simp [isAllBlank_of_isPlainNumeral hstep]
    · exact absurd hblank (hfills.ink (isAllBlank_of_spacingStep? hvalue))
  | typedParenthesized =>
    obtain ⟨family, hint, name, -, -, htyped⟩ := typedParenthesized?_eq_some h
    exact absurd hblank ((fills_of_typed? htyped).ink (isAllBlank_reference name))

/-- **The utilities that set a blank value.** -/
theorem exists_isAllBlank_iff (h : resolve? base = some declarations) :
    (∃ v ∈ values declarations, isAllBlank v = true) ↔ SetsBlank base := by
  constructor
  · obtain ⟨form, hfits, hread⟩ := exists_form_of_resolve? h
    exact setsBlank_of_read? hfits hread
  · intro hbase
    obtain ⟨others, hothers, hblank⟩ := hbase.exists_resolve?
    obtain rfl := Option.some.inj (hothers.symm.trans h)
    exact hblank

end AtomicCss.Dynamic
