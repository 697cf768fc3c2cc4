import AtomicCss.Proofs.Css.Containment
import AtomicCss.Proofs.Dynamic.Inversion
import AtomicCss.Proofs.Theme.Containment

/-!
# Filled templates

A family does one of many things with a value, but all of them come to the same: a list of properties is set, each to
the value with fixed text around it. This module says so once. After that it is enough to look at the tables to know
what holds of the declarations, and nobody has to follow the case analysis over families again.

## The architecture

* **`allTemplates`**, **`Template.IsListed`** — the templates of all tables, and those that set several properties to
  the value itself.
* **`fills_of_assign?`** — what a family does with a value is to fill a listed template, with the value or with its
  negation.
* **`fills_of_numeric?`** — the same for numbers, where the value is a number with its unit or a step.
-/

namespace AtomicCss.Dynamic

open Text (isIdentifier isAsciiName)

/-! ## Tables -/

/-- The templates of all tables. -/
def allTemplates : List Template :=
  templates.map Prod.snd ++ widths.map Prod.snd ++ typedTemplates.map Prod.snd ++
    numericFamilies.map (fun e => e.2.template) ++ translations.map fun e => translateTemplate e.2

/-- The properties that are set without a template. -/
def allProperties : List String :=
  ColorFamily.table.flatMap Prod.snd ++ Catalog.Spacing.families.flatMap Catalog.Spacing.Family.properties ++
    ["background-color", "background-image", "background-position", "font-weight", "font-family"]

theorem allProperties_pass : allProperties.all isAsciiName := by decide +kernel

theorem isIdentifier_of_mem {name : String} (h : name ∈ allProperties) : isIdentifier name = true :=
  Text.isIdentifier_of_isAsciiName (List.all_eq_true.1 allProperties_pass name h)

/-- A template of the tables, or properties that are all set to the value. -/
def Template.IsListed (template : Template) : Prop :=
  template ∈ allTemplates ∨
    ∃ names, names ≠ [] ∧ (∀ name ∈ names, isIdentifier name = true) ∧ template = Template.each names

theorem Template.isListed_each {names : List String} (hne : names ≠ [])
    (h : ∀ name ∈ names, isIdentifier name = true) : (Template.each names).IsListed :=
  .inr ⟨names, hne, h, rfl⟩

theorem Template.isListed_single {name : String} (h : isIdentifier name = true) :
    (Template.each [name]).IsListed :=
  isListed_each (by simp) fun _ hname => List.mem_singleton.1 hname ▸ h

/-- Setting properties to a value is to fill a template that has nothing around the value. -/
theorem each_eq_fill (names : List String) (value : String) :
    Declaration.each names value = (Template.each names).fill value := by
  rw [Declaration.each, Template.fill, Template.each, List.map_map]
  exact List.map_congr_left fun name _ => (Slot.fill_whole name value).symm

theorem property_eq_fill (name value : String) :
    [Declaration.property name value] = (Template.each [name]).fill value :=
  each_eq_fill [name] value

theorem colorFamilies_pass : (ColorFamily.table.all fun e => !e.2.isEmpty) = true := by decide

theorem spacingFamilies_pass :
    (Catalog.Spacing.families.all fun family => !family.properties.isEmpty) = true := by decide

theorem isIdentifier_of_mem_table {family : String} {properties : List String}
    (h : (family, properties) ∈ ColorFamily.table) : ∀ name ∈ properties, isIdentifier name = true := by
  intro name hname
  refine isIdentifier_of_mem (List.mem_append_left _ (List.mem_append_left _ ?_))
  exact List.mem_flatMap.2 ⟨_, h, hname⟩

theorem isIdentifier_of_mem_families {family : Catalog.Spacing.Family} (h : family ∈ Catalog.Spacing.families) :
    ∀ name ∈ family.properties, isIdentifier name = true := by
  intro name hname
  refine isIdentifier_of_mem (List.mem_append_left _ (List.mem_append_right _ ?_))
  exact List.mem_flatMap.2 ⟨family, h, hname⟩

theorem isListed_of_mem_table {family : String} {properties : List String}
    (h : (family, properties) ∈ ColorFamily.table) : (Template.each properties).IsListed := by
  refine Template.isListed_each (fun hempty => ?_) (isIdentifier_of_mem_table h)
  have := List.all_eq_true.1 colorFamilies_pass _ h
  simp [hempty] at this

theorem isListed_of_family? {name : String} {family : Catalog.Spacing.Family}
    (h : Catalog.Spacing.family? name = some family) : (Template.each family.properties).IsListed := by
  have hmem := (Catalog.Spacing.mem_families_of_family? h).1
  refine Template.isListed_each (fun hempty => ?_) (isIdentifier_of_mem_families hmem)
  have := List.all_eq_true.1 spacingFamilies_pass _ hmem
  simp [hempty] at this

/-! ## What a family does with a value -/

section Families

variable {family value : String} {declarations : List Declaration}

/-- Declarations that fill a listed template. -/
def Fills (value : String) (declarations : List Declaration) : Prop :=
  ∃ template : Template, template.IsListed ∧ declarations = template.fill value

theorem fills_of_templates (h : (templates.lookup family).map (Template.fill · value) = some declarations) :
    Fills value declarations := by
  obtain ⟨template, hlookup, rfl⟩ := Option.map_eq_some_iff.1 h
  have hmem := mem_map_snd_of_lookup hlookup
  exact ⟨template, .inl (by simp only [allTemplates, List.mem_append, hmem, true_or]), rfl⟩

/-- A family that looks at the value picks a property of its own. -/
theorem fills_of_sniff? (h : sniff? family value = some declarations) : Fills value declarations := by
  unfold sniff? at h
  split at h
  · cases h
    have hname : backgroundProperty value ∈ allProperties := by
      unfold backgroundProperty
      split
      · simp [allProperties]
      · split <;> simp [allProperties]
    exact ⟨_, Template.isListed_single (isIdentifier_of_mem hname), property_eq_fill _ _⟩
  · split at h
    · cases h
      have hname : fontProperty value ∈ allProperties := by
        unfold fontProperty
        split <;> simp [allProperties]
      exact ⟨_, Template.isListed_single (isIdentifier_of_mem hname), property_eq_fill _ _⟩
    · obtain ⟨properties, hlookup, rfl⟩ := Option.map_eq_some_iff.1 h
      -- a color family: its properties, or those of a width
      have hcolors : Fills value (Declaration.each properties value) :=
        ⟨_, isListed_of_mem_table (mem_of_lookup hlookup), each_eq_fill _ _⟩
      unfold sniffColor
      split
      · exact hcolors
      · split
        · rename_i template hwidth
          have hmem := mem_map_snd_of_lookup hwidth
          exact ⟨template, .inl (by simp only [allTemplates, List.mem_append, hmem, true_or, or_true]), rfl⟩
        · exact hcolors

theorem fills_of_typed? {hint : String} (h : typed? family hint value = some declarations) :
    Fills value declarations := by
  obtain ⟨template, hlookup, rfl⟩ := Option.map_eq_some_iff.1 h
  have hmem := mem_map_snd_of_lookup hlookup
  exact ⟨template, .inl (by simp only [allTemplates, List.mem_append, hmem, true_or, or_true]), rfl⟩

/-- A minus sign negates the value and changes nothing else. -/
theorem fills_of_negated? (h : negated? family value = some declarations) :
    Fills (negation value) declarations := by
  unfold negated? at h
  split at h
  · rename_i spacing hspacing
    cases h
    exact ⟨_, isListed_of_family? (Option.filter_eq_some_iff.1 hspacing).1, each_eq_fill _ _⟩
  · split at h
    · exact fills_of_templates h
    · cases h

/-- A family that nothing is known about has to be an identifier. -/
theorem fills_of_customProperty? (h : customProperty? family value = some declarations) :
    Fills value declarations := by
  unfold customProperty? at h
  split at h
  · cases h
  · rename_i hname
    rw [Bool.not_eq_true, Bool.not_eq_false'] at hname
    split at h
    · cases h
      exact ⟨_, Template.isListed_single hname, property_eq_fill _ _⟩
    · cases h
      exact ⟨_, Template.isListed_single (Text.isIdentifier_dashes hname), property_eq_fill _ _⟩

/-- A family without a sign: the four ways to read it, one after the other. -/
theorem fills_of_plain? (h : plain? family value = some declarations) : Fills value declarations := by
  rcases Option.or_eq_some_iff.1 h with hsniff | ⟨-, h⟩
  · exact fills_of_sniff? hsniff
  rcases Option.or_eq_some_iff.1 h with htemplate | ⟨-, h⟩
  · exact fills_of_templates htemplate
  rcases Option.or_eq_some_iff.1 h with hspacing | ⟨-, hcustom⟩
  · obtain ⟨spacing, hfamily, rfl⟩ := Option.map_eq_some_iff.1 hspacing
    exact ⟨_, isListed_of_family? hfamily, each_eq_fill _ _⟩
  · exact fills_of_customProperty? hcustom

/-- **What a family does with a value is to fill a listed template**, with the value or with its negation. -/
theorem fills_of_assign? {hint : Option String} (h : assign? family hint value = some declarations) :
    Fills value declarations ∨ Fills (negation value) declarations := by
  unfold assign? at h
  split at h
  · exact .inl (fills_of_typed? h)
  · split at h
    · exact .inr (fills_of_negated? h)
    · exact .inl (fills_of_plain? h)

end Families

/-! ## What a number comes to -/

/-- **A number fills a listed template**: a plain numeral with a sign and a unit, or a step of the spacing scale. -/
theorem fills_of_numeric? {base : String} {declarations : List Declaration}
    (h : numeric? base = some declarations) :
    (∃ negative step, ∃ measure : Measure, isPlainNumeral step = true ∧
      Fills (signText negative ++ (step ++ measure.unit)) declarations) ∨
    ∃ family step negative value, spacingStep? family step negative = some value ∧ Fills value declarations := by
  obtain ⟨negative, family, step, -, h⟩ := numeric?_eq_some h
  rcases h with ⟨known, hknown, h⟩ | ⟨-, h⟩
  · obtain ⟨-, text, htext, rfl⟩ := measured?_eq_some h
    obtain ⟨hstep, rfl⟩ := text?_eq_some htext
    have hmem : known.template ∈ numericFamilies.map fun e => e.2.template :=
      List.mem_map.2 ⟨(family, known), mem_of_lookup hknown, rfl⟩
    exact .inl ⟨negative, step, known.measure, hstep, known.template,
      .inl (by simp only [allTemplates, List.mem_append, hmem, true_or, or_true]), rfl⟩
  · obtain ⟨value, hvalue, h⟩ := spaced?_eq_some h
    refine .inr ⟨family, step, negative, value, hvalue, ?_⟩
    rcases h with ⟨axis, haxis, rfl⟩ | ⟨spacing, hspacing, -, rfl⟩
    · have hmem : translateTemplate axis ∈ translations.map fun e => translateTemplate e.2 :=
        List.mem_map.2 ⟨(family, axis), mem_of_lookup haxis, rfl⟩
      exact ⟨_, .inl (List.mem_append_right _ hmem), rfl⟩
    · exact ⟨_, isListed_of_family? hspacing, each_eq_fill _ _⟩

end AtomicCss.Dynamic
