import AtomicCss.Proofs.Css.Variables
import AtomicCss.Proofs.Dynamic.SpacingSteps

/-!
# Custom properties that numbers depend on

Among the utilities that end in a number, those that move, turn or scale an element share custom properties. What they
refer to is written in their templates, and a number in a template adds no reference to it (`unset_fill`), so that it is
enough to look at the tables.

A scaling along one axis is the exception. It applies the scales of both axes, and neither of them has a fallback, but
it sets only one.

## The architecture

* **`otherAxis`** — what a utility leaves unset, by its name: the axis that it does not scale.
* **`unset_fill`** — the number in a template does not matter.
* **`unset_of_measured?`**, **`unset_of_spaced?`** — the families with a unit, and those without.
* **`unset_of_numeric?`** — what a utility that ends in a number leaves unset.
-/

namespace AtomicCss.Dynamic

variable {base family step value : String} {declarations : List Declaration}

/-! ## One axis -/

/-- How the names of the utilities begin that scale along one axis, with the scale along the other one. -/
def otherAxes : List (String × String) :=
  [("scale-x-", "scale-y"), ("scale-y-", "scale-x")]

def otherAxisIn (cs : List Char) : List String :=
  (otherAxes.filter fun row => row.1.toList.isPrefixOf cs).map Prod.snd

/-- What the utility of a name leaves unset: the scale along the other axis, if it scales along one. -/
def otherAxis (base : String) : List String :=
  otherAxisIn base.toList

theorem mem_otherAxis_iff {name : String} : name ∈ otherAxis base ↔
    (Text.startsWith "scale-x-" base = true ∧ name = "scale-y") ∨
      (Text.startsWith "scale-y-" base = true ∧ name = "scale-x") := by
  simp only [otherAxis, otherAxisIn, otherAxes, List.mem_map, List.mem_filter, List.mem_cons, List.not_mem_nil, or_false,
    Text.startsWith]
  constructor
  · rintro ⟨row, ⟨rfl | rfl, hstart⟩, rfl⟩
    · exact .inl ⟨hstart, rfl⟩
    · exact .inr ⟨hstart, rfl⟩
  · rintro (⟨hstart, rfl⟩ | ⟨hstart, rfl⟩)
    · exact ⟨_, ⟨.inl rfl, hstart⟩, rfl⟩
    · exact ⟨_, ⟨.inr rfl, hstart⟩, rfl⟩

/-- What begins apart from both axes scales along none of them. -/
theorem otherAxis_of_apart {front : String} (h : (otherAxes.all fun row => Text.apart row.1 front) = true)
    (rest : String) : otherAxis (front ++ rest) = [] := by
  have hfront : front.toList <+: (front ++ rest).toList := ⟨rest.toList, by simp⟩
  have hnone : otherAxes.filter (fun row => row.1.toList.isPrefixOf (front ++ rest).toList) = [] := by
    rw [List.filter_eq_nil_iff]
    intro row hrow hstart
    exact Text.not_prefix_of_apart (List.all_eq_true.1 h row hrow) (List.isPrefixOf_iff_prefix.1 hstart) hfront
  rw [otherAxis, otherAxisIn, hnone, List.map_nil]

/-- A minus sign stands in front of none of the families that scale along one axis. -/
theorem otherAxis_signed (negative : Bool) (rest : String) :
    otherAxis (signText negative ++ rest) = if negative then [] else otherAxis rest := by
  cases negative with
  | true => exact otherAxis_of_apart (by decide) rest
  | false =>
    rw [show signText false = "" from rfl, String.empty_append]
    rfl

/-- What has no dash does not continue a text that ends in one. -/
theorem isPrefixOf_append_of_not_mem {start front back : List Char} {c : Char} (hlast : start.getLast? = some c)
    (h : c ∉ back) : start.isPrefixOf (front ++ back) = start.isPrefixOf front := by
  rw [Bool.eq_iff_iff, List.isPrefixOf_iff_prefix, List.isPrefixOf_iff_prefix]
  refine ⟨fun hstart => ?_, fun hstart => hstart.trans (List.prefix_append _ _)⟩
  rcases List.prefix_or_prefix_of_prefix hstart (List.prefix_append front back) with hfront | ⟨rest, rfl⟩
  · exact hfront
  · -- what the text has in front of the dash and behind `front` stands in `back`
    rw [List.prefix_append_right_inj] at hstart
    cases rest with
    | nil => rw [List.append_nil]
    | cons d rest =>
      rw [List.getLast?_append_of_ne_nil _ (List.cons_ne_nil _ _)] at hlast
      exact absurd (hstart.subset (List.mem_of_getLast? hlast)) h

/-- What stands behind the dash of a family does not matter. -/
theorem otherAxis_step (h : '-' ∉ step.toList) : otherAxis (family ++ "-" ++ step) = otherAxis (family ++ "-") := by
  have hlast : ∀ row ∈ otherAxes, row.1.toList.getLast? = some '-' := by decide
  rw [otherAxis, otherAxis, otherAxisIn, otherAxisIn, String.toList_append]
  refine congrArg _ (List.filter_congr fun row hrow => ?_)
  exact isPrefixOf_append_of_not_mem (hlast row hrow) h

/-! ## Templates -/

/-- Whether only the text behind the given value can refer to anything. -/
def Slot.isPlainInFront (slot : Slot) : Bool :=
  slot.pieces.dropLast.all fun piece => !piece.toList.contains 'v'

/-- The given value and the text in front of it refer to nothing. -/
theorem references_intercalate (hvalue : 'v' ∉ value.toList) {pieces : List String}
    (h : ∀ piece ∈ pieces.dropLast, 'v' ∉ piece.toList) :
    references (value.intercalate pieces) = references (pieces.getLast?.getD "") := by
  induction pieces with
  | nil => rfl
  | cons piece pieces ih =>
    cases pieces with
    | nil => simp
    | cons next pieces =>
      rw [List.dropLast_cons_cons, List.forall_mem_cons] at h
      have hfront : 'v' ∉ (piece ++ value).toList := by simp [h.1, hvalue]
      rw [String.intercalate_cons_cons, references_append hfront, ih h.2, List.getLast?_cons_cons]

/-- **The value in a template does not matter** for what is left unset. -/
theorem unset_fill {template : Template} (htemplate : (template.all Slot.isPlainInFront) = true)
    (hvalue : 'v' ∉ value.toList) : unset (template.fill value) = unset (template.fill "") := by
  have hsettings (value : String) : settings (template.fill value) =
      template.map fun slot => (slot.property, value.intercalate slot.pieces) := by
    rw [settings, Template.fill, List.flatMap_map]
    exact List.map_eq_flatMap.symm
  have hreferences {value : String} (hvalue : 'v' ∉ value.toList) :
      (settings (template.fill value)).flatMap (fun p => references p.2) =
        template.flatMap fun slot => references (slot.pieces.getLast?.getD "") := by
    rw [hsettings, List.flatMap_map]
    refine List.flatMap_congr fun slot hslot => references_intercalate hvalue fun piece hpiece => ?_
    simpa using List.all_eq_true.1 (List.all_eq_true.1 htemplate slot hslot) piece hpiece
  have hnames (value : String) : (settings (template.fill value)).map Prod.fst = template.map Slot.property := by
    rw [hsettings, List.map_map]
    rfl
  rw [unset, unset, hreferences hvalue, hreferences (by simp), hnames, hnames]

/-! ## Numbers -/

theorem numericFamilies_plain : (numericFamilies.all fun entry => entry.2.template.all Slot.isPlainInFront) = true := by
  decide

/-- The templates of numbers leave the other axis unset, and no family that takes a sign has one. -/
theorem numericFamilies_unset : (numericFamilies.all fun entry =>
    unset (entry.2.template.fill "") == otherAxis (entry.1 ++ "-") &&
      (!entry.2.signed || otherAxis (entry.1 ++ "-") == [])) = true := by
  decide +kernel

theorem stepFamilies_apart : (stepFamilies.all fun family =>
    otherAxes.all fun row => Text.apart row.1 (family ++ "-")) = true := by
  decide

theorem not_mem_of_isPlainNumeral {c : Char} (h : isPlainNumeral step = true) (hdigit : c.isDigit = false)
    (hdot : c ≠ '.') : c ∉ step.toList := by
  intro hmem
  rcases Text.isDigit_or_of_isPlainNumeral h c hmem with hc | hc
  · rw [hdigit] at hc
    cases hc
  · exact hdot hc

theorem not_mem_of_measure {c : Char} (hc : c ∈ ['v', 'w']) (measure : Measure) : c ∉ measure.unit.toList := by
  rcases List.mem_pair.1 hc with rfl | rfl <;> cases measure <;> decide

theorem not_mem_of_signText {c : Char} (hc : c ∈ ['v', 'w']) (negative : Bool) : c ∉ (signText negative).toList := by
  rcases List.mem_pair.1 hc with rfl | rfl <;> cases negative <;> decide

/-- A multiple refers to the spacing unit. -/
theorem references_spacingValue (h : 'w' ∉ step.toList) : references (Catalog.spacingValue step) = [] := by
  refine references_eq_nil (c := 'w') (by decide) ?_
  unfold Catalog.spacingValue
  simp [h]

/-- A step refers to the spacing unit at most. -/
theorem references_of_spacingStep? {negative : Bool} (h : spacingStep? family step negative = some value) :
    references value = [] := by
  have hsign := not_mem_of_signText (show 'w' ∈ ['v', 'w'] by simp) negative
  rcases spacingStep?_cases h with ⟨left, right, n, d, -, -, -, -, -, rfl⟩ | ⟨hstep, rfl⟩
  · have hdigits (n : Nat) : 'w' ∉ Nat.toDigits 10 n := fun hmem =>
      absurd (Nat.isDigit_of_mem_toDigits (by decide) (by decide) hmem) (by decide)
    exact references_eq_nil (c := 'w') (by decide) (by simp [hsign, hdigits])
  · have hletter : 'w' ∉ step.toList := not_mem_of_isPlainNumeral hstep (by decide) (by decide)
    exact references_spacingValue (by simp [hsign, hletter])

theorem references_translateValue : references Catalog.translateValue = [] := by decide

/-- A translation applies both axes, each with a fallback. -/
theorem unset_translate (axis : String) (h : references value = []) :
    unset ((translateTemplate axis).fill value) = [] := by
  refine unset_eq_nil fun p hp => ?_
  have hcases : p = (axis, value) ∨ p = ("translate", Catalog.translateValue) := by
    simpa [settings, Template.fill, translateTemplate, Slot.fill_whole, Slot.fill_fixed, Declaration.properties] using hp
  rcases hcases with rfl | rfl
  · exact h
  · exact references_translateValue

/-- **A number with a unit** leaves what the template of its family leaves, which is in the table. -/
theorem unset_of_measured? {known : NumericFamily} {negative : Bool} (hknown : (family, known) ∈ numericFamilies)
    (h : measured? known step negative = some declarations) :
    unset declarations = otherAxis (signText negative ++ (family ++ "-" ++ step)) := by
  obtain ⟨hsign, text, htext, rfl⟩ := measured?_eq_some h
  obtain ⟨hstep, rfl⟩ := text?_eq_some htext
  have hletter : 'v' ∉ step.toList := not_mem_of_isPlainNumeral hstep (by decide) (by decide)
  have hvalue : 'v' ∉ (signText negative ++ (step ++ known.measure.unit)).toList := by
    simp [not_mem_of_signText, not_mem_of_measure, hletter]
  have htable := List.all_eq_true.1 numericFamilies_unset _ hknown
  rw [Bool.and_eq_true, beq_iff_eq, Bool.or_eq_true, Bool.not_eq_true', beq_iff_eq] at htable
  rw [unset_fill (List.all_eq_true.1 numericFamilies_plain _ hknown) hvalue, htable.1, otherAxis_signed]
  split
  · rename_i hnegative
    exact htable.2.resolve_left (by simp [hsign hnegative])
  · exact (otherAxis_step (not_mem_of_isPlainNumeral hstep (by decide) (by decide))).symm

/-- **A number without a unit** leaves nothing. -/
theorem unset_of_spaced? {negative : Bool} (h : spaced? family step negative = some declarations) :
    unset declarations = otherAxis (signText negative ++ (family ++ "-" ++ step)) := by
  obtain ⟨value, hvalue, hfamily⟩ := spaced?_eq_some h
  have hreferences := references_of_spacingStep? hvalue
  have hmem : family ∈ stepFamilies := by
    rcases hfamily with ⟨axis, haxis, -⟩ | ⟨spacing, hspacing, -⟩
    · exact List.mem_append_right _ (mem_map_fst_of_lookup haxis)
    · obtain ⟨hmem, rfl⟩ := Catalog.Spacing.mem_families_of_family? hspacing
      exact mem_stepFamilies_of_spacing hmem
  rw [otherAxis_signed, otherAxis_of_apart (List.all_eq_true.1 stepFamilies_apart family hmem) step, ite_self]
  rcases hfamily with ⟨axis, -, rfl⟩ | ⟨spacing, -, -, rfl⟩
  · exact unset_translate axis hreferences
  · exact unset_each _ hreferences

/-- **What a utility that ends in a number leaves unset**: the other axis, if it scales along one, and else nothing. -/
theorem unset_of_numeric? (h : numeric? base = some declarations) : unset declarations = otherAxis base := by
  obtain ⟨negative, family, step, hbase, hread⟩ := numeric?_eq_some h
  have hsigned : base = signText negative ++ (family ++ "-" ++ step) := by simp only [hbase, String.append_assoc]
  rw [hsigned]
  rcases hread with ⟨known, hknown, hread⟩ | ⟨-, hread⟩
  · exact unset_of_measured? (mem_of_lookup hknown) hread
  · exact unset_of_spaced? hread

end AtomicCss.Dynamic
