import AtomicCss.Proofs.Catalog.Containment
import AtomicCss.Proofs.Dynamic.SpacingSteps

/-!
# Steps that are listed and steps that are read

The catalog lists the common steps of the spacing families, and a number that it does not list is read as it comes.
Both make the same of a step, so that it does not matter which of them answers. But later families of the catalog can
list a name once more, and of the steps the sizing utilities do so with two, which they set to a plain zero.

## The architecture

* **`endsStep`**, **`IsStep`** — what the name of a step looks like: a dynamic utility ends in a digit or in a closing
  bracket, and so does no keyword of the catalog.
* **`beginsAny`** — whether a text begins with one of many, reading it only once. The lists of the catalog are swept
  with it.
* **`filter_entries`** — the entries of a step: those of the spacing utilities and, behind them, `overrides`.
* **`exists_step_of_mem_spacing`** — an entry of the spacing utilities that looks like a step is one.
* **`resolve?_step`** — what is read for such a step.
* **`listed_steps_are_read_steps`** — where the catalog and the reading agree.
-/

namespace AtomicCss.Catalog

open AtomicCss.Dynamic (signText)

/-! ## Names of steps -/

/-- Whether a text has no slash and ends in a digit or in a closing bracket. -/
def endsStep (s : String) : Bool :=
  !s.toList.contains '/' && s.toList.getLast?.any fun c => c.isDigit || c == ']' || c == ')'

/-- The name of a step: a spacing family with something behind its dash that ends as a dynamic utility can, with or
without a minus sign in front. -/
def IsStep (name : String) : Prop :=
  endsStep name = true ∧ ∃ family ∈ Spacing.families, ∃ negative step,
    name = signText negative ++ member family.name step

/-- The end of a text decides. -/
theorem endsStep_of_append {front back : String} (hback : back ≠ "") (h : endsStep (front ++ back) = true) :
    endsStep back = true := by
  rw [endsStep, Bool.and_eq_true, Bool.not_eq_true', ← Bool.not_eq_true, List.contains_iff_mem] at h ⊢
  obtain ⟨hslash, hlast⟩ := h
  refine ⟨fun hmem => hslash ?_, ?_⟩
  · rw [String.toList_append]
    exact List.mem_append_right _ hmem
  · have hne : back.toList ≠ [] := by rwa [ne_eq, String.toList_eq_nil_iff]
    rwa [String.toList_append, List.getLast?_append_of_ne_nil _ hne] at hlast

/-! ## What begins like a step -/

/-- What follows a byte in a list that begins with it. -/
def behindByte? (byte : UInt8) : List UInt8 → Option (List UInt8)
  | [] => none
  | b :: bs => if byte = b then some bs else none

/-- Whether a list of bytes begins with one of several. -/
def beginsAny : List (List UInt8) → List UInt8 → Bool
  | starts, [] => starts.any List.isEmpty
  | starts, byte :: bs =>
    starts.any List.isEmpty ||
      (!(starts.filterMap (behindByte? byte)).isEmpty && beginsAny (starts.filterMap (behindByte? byte)) bs)

theorem beginsAny_of_prefix {start bs : List UInt8} (hstart : start <+: bs) :
    ∀ {starts : List (List UInt8)}, start ∈ starts → beginsAny starts bs = true := by
  induction bs generalizing start with
  | nil =>
    intro starts hmem
    obtain rfl := List.prefix_nil.1 hstart
    exact List.any_eq_true.2 ⟨[], hmem, rfl⟩
  | cons byte bs ih =>
    intro starts hmem
    rw [beginsAny, Bool.or_eq_true]
    cases start with
    | nil => exact .inl (List.any_eq_true.2 ⟨[], hmem, rfl⟩)
    | cons first start =>
      obtain ⟨rfl, htail⟩ := List.cons_prefix_cons.1 hstart
      have hrest : start ∈ starts.filterMap (behindByte? first) :=
        List.mem_filterMap.2 ⟨_, hmem, if_pos rfl⟩
      refine .inr (Bool.and_eq_true_iff.2 ⟨?_, ih htail hrest⟩)
      rw [Bool.not_eq_true', List.isEmpty_eq_false_iff_exists_mem]
      exact ⟨_, hrest⟩

/-- How the names of steps begin: every spacing family with its dash, without a sign and with one. -/
def stepStarts : List (List UInt8) :=
  Spacing.families.flatMap fun family => [false, true].map fun negative =>
    (signText negative ++ family.name ++ "-").toUTF8.data.toList

/-- Whether a name looks like that of a step. It can be told from the bytes until the family is known. -/
def isStepLike (name : String) : Bool :=
  beginsAny stepStarts name.toUTF8.data.toList && endsStep name

theorem IsStep.isStepLike {name : String} (h : IsStep name) : isStepLike name = true := by
  obtain ⟨hends, family, hfamily, negative, step, rfl⟩ := h
  refine Bool.and_eq_true_iff.2 ⟨?_, hends⟩
  have hmem : (signText negative ++ family.name ++ "-").toUTF8.data.toList ∈ stepStarts :=
    List.mem_flatMap.2 ⟨family, hfamily, List.mem_map.2 ⟨negative, by cases negative <;> simp, rfl⟩⟩
  refine beginsAny_of_prefix ⟨step.toUTF8.data.toList, ?_⟩ hmem
  simp only [member, Text.bytes_eq_flatMap, String.toList_append, List.flatMap_append, List.append_assoc]

/-! ## Families of the catalog that list no steps -/

/-- The steps that the sizing utilities list once more. -/
def overrides : List Entry :=
  [entryOfEach "min-h-0" ["min-height"] "0", entryOfEach "min-w-0" ["min-width"] "0"]

/-- Only the sizing utilities, the spacing utilities and the colors have names that look like those of steps. -/
theorem other_steps :
    ((Layout.entries ++ Flexbox.entries ++ Typography.entries) ++
      (Effects.entries ++ Motion.entries ++ Interactivity.entries)).filter (fun e => isStepLike e.1) = [] := by
  decide +kernel

/-- A name whose part behind the dash does not end like a step is none. -/
theorem isStepLike_member {family name : String} (h : endsStep name = false ∧ name ≠ "") :
    isStepLike (member family name) = false := by
  rw [← Bool.not_eq_true]
  intro hstep
  rw [endsStep_of_append h.2 (Bool.and_eq_true_iff.1 hstep).2] at h
  cases h.1

theorem isStepLike_of_mem_scaleEntries {family : String} {properties : List String} {table : List (String × String)}
    (h : ∀ row ∈ table, endsStep row.1 = false ∧ row.1 ≠ "") :
    ∀ e ∈ scaleEntries family properties table, isStepLike e.1 = false := by
  intro e he
  obtain ⟨row, hrow, rfl⟩ := List.mem_map.1 he
  exact isStepLike_member (h row hrow)

/-- No keyword, no fraction, no unit and no size of a container ends like a step. -/
theorem sizing_tables_pass : ∀ table ∈ [Sizing.keywords, Spacing.fractions, Sizing.viewportWidths,
    Sizing.viewportHeights, Sizing.containerSizes], ∀ row ∈ table, endsStep row.1 = false ∧ row.1 ≠ "" := by
  decide

theorem isStepLike_of_mem_sizing {family : String} {properties : List String} {screen : String} :
    ∀ e ∈ Sizing.familyEntries family properties screen, isStepLike e.1 = false := by
  intro e he
  simp only [Sizing.familyEntries, List.mem_append, or_assoc] at he
  rcases he with he | he | he | he
  · exact isStepLike_of_mem_scaleEntries (sizing_tables_pass _ (by simp)) e he
  · obtain rfl := List.mem_singleton.1 he
    exact isStepLike_member (by decide)
  · exact isStepLike_of_mem_scaleEntries (sizing_tables_pass _ (by simp)) e he
  · have hunits : Sizing.unitsOf family ∈ [Sizing.viewportWidths, Sizing.viewportHeights] := by
      unfold Sizing.unitsOf
      split <;> simp
    refine isStepLike_of_mem_scaleEntries (sizing_tables_pass _ ?_) e he
    rcases List.mem_pair.1 hunits with h | h <;> simp [h]

theorem filter_isStepLike_eq_nil {l : List Entry} (h : ∀ e ∈ l, isStepLike e.1 = false) :
    l.filter (fun e => isStepLike e.1) = [] := by
  rw [List.filter_eq_nil_iff]
  intro e he
  simp [h e he]

/-- **The sizing utilities list no steps but the overrides.** -/
theorem sizing_steps : Sizing.entries.filter (fun e => isStepLike e.1) = overrides := by
  rw [Sizing.entries, List.filter_append, List.filter_append, filter_isStepLike_eq_nil, filter_isStepLike_eq_nil]
  · decide +kernel
  · intro e he
    obtain ⟨row, -, he⟩ := List.mem_flatMap.1 he
    exact isStepLike_of_mem_scaleEntries (sizing_tables_pass _ (by simp)) e he
  · intro e he
    obtain ⟨row, -, he⟩ := List.mem_flatMap.1 he
    exact isStepLike_of_mem_sizing e he

/-! ## Families with names of their own -/

/-- The families of the colors and the space between children begin with a letter, and as no spacing family does. -/
theorem others_pass : (("space" :: ColorFamily.table.map Prod.fst).all fun other =>
    other.toList.head?.any Char.isAlpha &&
      Spacing.families.all fun family => Dynamic.beginApart other family.name) = true := by
  decide

theorem not_isStep_member {other : String} (h : other ∈ "space" :: ColorFamily.table.map Prod.fst) (name : String) :
    ¬ IsStep (member other name) := by
  rintro ⟨-, family, hfamily, negative, step, heq⟩
  obtain ⟨hletter, hapart⟩ := Bool.and_eq_true_iff.1 (List.all_eq_true.1 others_pass other h)
  cases negative with
  | false =>
    have hother : (other ++ "-").toList <+: (member other name).toList :=
      ⟨name.toList, by simp [member]⟩
    have hstart : (family.name ++ "-").toList <+: (member other name).toList :=
      ⟨step.toList, by rw [heq]; simp [member, signText]⟩
    exact Dynamic.not_prefix_of_beginApart (List.all_eq_true.1 hapart family hfamily) hother hstart
  | true =>
    -- a letter is no sign
    obtain ⟨c, hc, halpha⟩ := (Option.any_eq_true ..).1 hletter
    obtain ⟨cs, hcs⟩ := List.head?_eq_some_iff.1 hc
    have hchars := congrArg String.toList heq
    simp only [member, String.toList_append, hcs] at hchars
    obtain ⟨rfl, -⟩ := List.cons.inj hchars
    exact absurd halpha (by decide)

theorem not_isStep_of_mem_color : ∀ e ∈ Color.entries, ¬ IsStep e.1 := by
  intro e he
  obtain ⟨row, hrow, he⟩ := List.mem_flatMap.1 he
  obtain ⟨color, -, rfl⟩ := List.mem_map.1 he
  exact not_isStep_member (List.mem_cons_of_mem _ (List.mem_map_of_mem hrow)) _

/-! ## The entries of a step -/

/-- **What the catalog lists for a step**: the entries of the spacing utilities and, behind them, the overrides. -/
theorem filter_entries {key : String} (hkey : IsStep key) :
    entries.filter (fun e => e.1 = key) =
      Spacing.entries.filter (fun e => e.1 = key) ++ overrides.filter (fun e => e.1 = key) := by
  -- an entry of this name is left by the sweep, since the name is like that of a step
  have hsweep (l : List Entry) :
      l.filter (fun e => e.1 = key) = (l.filter fun e => isStepLike e.1).filter fun e => e.1 = key := by
    rw [List.filter_filter]
    refine List.filter_congr fun e _ => ?_
    by_cases heq : e.1 = key
    · simp [heq, hkey.isStepLike]
    · simp [heq]
  have hother := hsweep (Layout.entries ++ Flexbox.entries ++ Typography.entries ++
    (Effects.entries ++ Motion.entries ++ Interactivity.entries))
  have hsizing := hsweep Sizing.entries
  rw [other_steps, List.filter_nil] at hother
  rw [sizing_steps] at hsizing
  have hcolor : Color.entries.filter (fun e => e.1 = key) = [] := by
    rw [List.filter_eq_nil_iff]
    intro e he heq
    obtain rfl := of_decide_eq_true heq
    exact not_isStep_of_mem_color e he hkey
  simp only [entries, List.filter_append, List.append_eq_nil_iff] at hother ⊢
  simp only [hother, hsizing, hcolor, List.nil_append, List.append_nil]

/-! ## Spacing utilities -/

/-- What stands behind the dash of a name can keep it from being that of a step, with a sign in front as without. -/
theorem not_isStep_of_end {family name : String} (h : endsStep name = false ∧ name ≠ "") (negative : Bool) :
    ¬ IsStep (signText negative ++ member family name) := by
  rintro ⟨hends, -⟩
  rw [member, ← String.append_assoc] at hends
  rw [endsStep_of_append h.2 hends] at h
  cases h.1

theorem words_end : ∀ row ∈ Spacing.words, endsStep row.1 = false ∧ row.1 ≠ "" := by
  decide

/-- Every step of every spacing family is listed, and its negation if the family has a sign and the step is not zero. -/
theorem mem_entries_of_step {family : Spacing.Family} (hfamily : family ∈ Spacing.families) {step : String}
    (hstep : step ∈ Spacing.steps) {negative : Bool}
    (hsign : negative = true → family.signed = true ∧ step ≠ "0") :
    Spacing.stepEntry family negative step ∈ entries := by
  have hentry : Spacing.stepEntry family negative step ∈ Spacing.stepEntries family step := by
    cases negative with
    | false => simp [Spacing.stepEntry, Spacing.stepEntries, signText]
    | true => simp [Spacing.stepEntry, Spacing.stepEntries, signText, Spacing.negate, hsign rfl]
  have hspacing : Spacing.stepEntry family negative step ∈ Spacing.entries := by
    simp only [Spacing.entries, Spacing.familyEntries, List.mem_append, List.mem_flatMap]
    exact .inl (.inl (.inl ⟨family, hfamily, .inl (.inl ⟨step, hstep, hentry⟩)⟩))
  simp only [entries, List.mem_append, hspacing, or_true, true_or]

/-- **An entry of the spacing utilities with the name of a step is one.** -/
theorem exists_step_of_mem_spacing {e : Entry} (he : e ∈ Spacing.entries) (hstep : IsStep e.1) :
    ∃ family ∈ Spacing.families, ∃ negative, ∃ step ∈ Spacing.steps,
      (negative = true → family.signed = true) ∧ e = Spacing.stepEntry family negative step := by
  cases Spacing.lists_of_mem he with
  | step hfamily hsign hmem => exact ⟨_, hfamily, _, _, hmem, hsign, rfl⟩
  | word hfamily negative hrow => exact absurd hstep (not_isStep_of_end (words_end _ hrow) negative)
  | between hrow hmem => exact absurd hstep (not_isStep_member List.mem_cons_self _)

/-! ## Reading a step -/

/-- A step is a plain number in quarters. -/
theorem steps_pass : (Spacing.steps.all fun step => !step.toList.contains '-' &&
    (step.toList.getLast?.map Char.isDigit).getD false && Text.cut? "/" step == none &&
      (isPlainNumeral step && ((numeralValue step).map Binary64.isQuarterStep).getD false)) = true := by
  decide +kernel

/-- **What is read for a step of the catalog.** -/
theorem resolve?_step {family : Spacing.Family} (hfamily : family ∈ Spacing.families) {step : String}
    (hstep : step ∈ Spacing.steps) {negative : Bool} (hsign : negative = true → family.signed = true) :
    Dynamic.resolve? (signText negative ++ member family.name step) =
      some (Declaration.each family.properties (spacingValue (signText negative ++ step))) := by
  have hstepPass := List.all_eq_true.1 steps_pass step hstep
  simp only [Bool.and_eq_true, Bool.not_eq_true', beq_iff_eq] at hstepPass
  obtain ⟨⟨⟨hdash, hdigit⟩, hslash⟩, hquarter⟩ := hstepPass
  have hmemFamilies := Dynamic.mem_stepFamilies_of_spacing hfamily
  have hnumeric := Dynamic.numericFamilies_lookup_of_stepFamilies hmemFamilies
  obtain ⟨hfound, htranslation⟩ := Dynamic.lookup_of_mem_families hfamily
  have hne : step.toList ≠ [] := by
    intro hnil
    rw [hnil] at hdigit
    cases hdigit
  have hbase : signText negative ++ member family.name step = signText negative ++ family.name ++ "-" ++ step := by
    simp only [member, String.append_assoc]
  have hstart : Text.startsWith "-" (family.name ++ "-" ++ step) = false := by
    rw [String.append_assoc]
    exact Dynamic.startsWith_dash_of_mem_knownFamilies (Dynamic.mem_knownFamilies_of_stepFamilies hmemFamilies) _
  have hmem : '-' ∉ step.toList := by
    intro hmem
    rw [List.contains_iff_mem.2 hmem] at hdash
    cases hdash
  refine Dynamic.resolve?_eq_some_iff.2 ⟨.numeric, ?_, ?_⟩
  · rw [Dynamic.Form.fits, hbase, String.toList_append, List.getLast?_append_of_ne_nil _ hne]
    exact hdigit
  · have hread := Dynamic.numeric?_append hmem hstart negative
    rw [← hbase] at hread
    have hvalue : Dynamic.spacingStep? family.name step negative = some (spacingValue (signText negative ++ step)) := by
      rw [Dynamic.spacingStep?, hslash]
      exact if_pos (Bool.and_eq_true_iff.2 hquarter)
    refine hread.trans ?_
    rw [Dynamic.Operand.read?, hnumeric]
    simpa [Dynamic.spaced?, hvalue, htranslation, hfound] using hsign

/-! ## Agreement -/

/-- What is read as a dynamic utility ends as a step does, if it begins like one and has no slash. -/
theorem endsStep_of_resolve? {family : Spacing.Family} (hfamily : family ∈ Spacing.families) {negative : Bool}
    {step key : String} (hkey : key = signText negative ++ member family.name step) (hslash : '/' ∉ step.toList)
    {declarations : List Declaration} (h : Dynamic.resolve? key = some declarations) : endsStep key = true := by
  have hname : Text.isIdentifier (signText negative ++ family.name) = true := by
    refine Text.isIdentifier_append ?_ (Dynamic.isIdentifier_of_mem_knownFamilies
      (Dynamic.mem_knownFamilies_of_stepFamilies (Dynamic.mem_stepFamilies_of_spacing hfamily)))
    cases negative <;> decide
  have hchars : key.toList = (signText negative ++ family.name).toList ++ '-' :: step.toList := by
    simp [hkey, member]
  have hfree : '/' ∉ key.toList := by
    have hnot : '/' ∉ (signText negative ++ family.name).toList := Text.not_mem_of_isIdentifier hname (by decide)
    rw [hchars, List.mem_append, List.mem_cons]
    rintro (hmem | hmem | hmem)
    · exact hnot hmem
    · cases hmem
    · exact hslash hmem
  have hends {c : Char} (hlast : key.toList.getLast? = some c) (hc : (c.isDigit || c == ']' || c == ')') = true) :
      endsStep key = true := by
    rw [endsStep, hlast, Bool.and_eq_true, Bool.not_eq_true', ← Bool.not_eq_true, List.contains_iff_mem]
    exact ⟨hfree, hc⟩
  obtain ⟨form, hfits, -⟩ := Dynamic.exists_form_of_resolve? h
  cases form with
  | propertyWithOpacity =>
    -- a bracket does not begin a name
    obtain ⟨rest, hrest⟩ := Text.startsWith_iff.1 (Bool.and_eq_true_iff.1 hfits).1
    have hopen : key.toList = '[' :: ("--" ++ rest).toList := by simp [hrest]
    exact absurd (hchars.symm.trans hopen) (Text.ne_of_isIdentifier hname (by decide) _ _)
  | colorWithOpacity =>
    obtain ⟨left, right, heq⟩ := Text.contains_iff.1 (Bool.and_eq_true_iff.1 hfits).1
    exact absurd (by simp [heq]) hfree
  | bracketed => exact hends (Dynamic.getLast?_of_endsWith hfits rfl) rfl
  | parenthesized => exact hends (Dynamic.getLast?_of_endsWith (Bool.and_eq_true_iff.1 hfits).1 rfl) rfl
  | numeric =>
    cases hlast : key.toList.getLast? with
    | none => simp [Dynamic.Form.fits, hlast] at hfits
    | some c =>
      have hdigit : c.isDigit = true := by simpa [Dynamic.Form.fits, hlast] using hfits
      exact hends hlast (by simp [hdigit])
  | typedParenthesized => exact hends (Dynamic.getLast?_of_endsWith (Bool.and_eq_true_iff.1 hfits).1 rfl) rfl

/-- What the catalog has for a step that no override names is listed by the spacing utilities. -/
theorem mem_spacing_of_search {key : String} (hkey : IsStep key) (hfree : ∀ e ∈ overrides, e.1 ≠ key)
    {utility : Utility} (h : standard.search key = some utility) : (key, utility) ∈ Spacing.entries := by
  have hnone : overrides.filter (fun e => e.1 = key) = [] := by
    rw [List.filter_eq_nil_iff]
    exact fun e he heq => hfree e he (of_decide_eq_true heq)
  rw [standard, Trie.search_ofList, filter_entries hkey, hnone, List.append_nil] at h
  obtain ⟨⟨name, found⟩, hlast, rfl⟩ := Option.map_eq_some_iff.1 h
  obtain ⟨hmem, heq⟩ := List.mem_filter.1 (List.mem_of_getLast? hlast)
  obtain rfl := of_decide_eq_true heq
  exact hmem

/-- The overrides have different names, and what is read for these names is something else. -/
theorem overrides_pass : ∀ e ∈ overrides, (overrides.filter fun e' => e'.1 = e.1).getLast? = some e ∧
    Dynamic.resolve? e.1 ≠ some e.2.declarations := by
  decide +kernel

theorem isStep_of_mem_overrides : ∀ e ∈ overrides, IsStep e.1 := by
  intro e he
  rcases List.mem_pair.1 he with rfl | rfl
  · exact ⟨by decide, ⟨"min-h", ["min-height"], false⟩, by decide, false, "0", rfl⟩
  · exact ⟨by decide, ⟨"min-w", ["min-width"], false⟩, by decide, false, "0", rfl⟩

/-- **The catalog has the overrides**, since they are listed behind the steps. -/
theorem search_of_mem_overrides {e : Entry} (he : e ∈ overrides) : standard.search e.1 = some e.2 := by
  rw [standard, Trie.search_ofList, filter_entries (isStep_of_mem_overrides e he), List.getLast?_append,
    (overrides_pass e he).1]
  rfl

/-- **The steps of the catalog are those that are read**, but for the minimum sizes of zero. Take a spacing family with
or without a minus sign in front, and behind its dash a text without a slash. If the catalog has this name and it can
be read as well, then both set the same, and the catalog adds neither a suffix nor keyframes, exactly if the name is
none of the two that the sizing utilities list once more. -/
theorem listed_steps_are_read_steps {family : Spacing.Family} (hfamily : family ∈ Spacing.families) (negative : Bool)
    {step key : String} (hkey : key = signText negative ++ member family.name step) (hslash : '/' ∉ step.toList)
    {utility : Utility} {declarations : List Declaration} (hlisted : standard.search key = some utility)
    (hread : Dynamic.resolve? key = some declarations) :
    utility = { declarations := declarations } ↔ key ≠ "min-h-0" ∧ key ≠ "min-w-0" := by
  have hstep : IsStep key :=
    ⟨endsStep_of_resolve? hfamily hkey hslash hread, family, hfamily, negative, step, hkey⟩
  have hnames : (∀ e ∈ overrides, e.1 ≠ key) ↔ key ≠ "min-h-0" ∧ key ≠ "min-w-0" := by
    simp [overrides, entryOfEach, eq_comm]
  rw [← hnames]
  constructor
  · rintro hutility e he rfl
    rw [search_of_mem_overrides he] at hlisted
    obtain rfl := Option.some.inj hlisted
    refine (overrides_pass e he).2 ?_
    rw [hutility]
    exact hread
  · intro hfree
    have hmem := mem_spacing_of_search hstep hfree hlisted
    obtain ⟨family', hfamily', negative', step', hstep', hsign, heq⟩ := exists_step_of_mem_spacing hmem hstep
    obtain ⟨hname, rfl⟩ := Prod.mk.inj heq
    have hread' := resolve?_step hfamily' hstep' hsign
    rw [← hname, hread] at hread'
    rw [Option.some.inj hread']

/-- A negative margin is listed as it is read. -/
theorem negative_margin_is_listed :
    standard.search "-mt-2.5" = some { declarations := [.property "margin-top" "calc(var(--spacing) * -2.5)"] } := by
  have hfamily : (⟨"mt", ["margin-top"], true⟩ : Spacing.Family) ∈ Spacing.families := by decide
  have hmem : "-mt-2.5" ∈ entries.map Prod.fst := by
    have hlisted : Spacing.stepEntry ⟨"mt", ["margin-top"], true⟩ true "2.5" ∈ entries :=
      mem_entries_of_step hfamily (by decide) fun _ => ⟨rfl, by decide⟩
    exact List.mem_map.2 ⟨_, hlisted, by decide⟩
  have hkey : "-mt-2.5" = signText true ++ member "mt" "2.5" := by decide
  have hread : Dynamic.resolve? "-mt-2.5" = some [.property "margin-top" "calc(var(--spacing) * -2.5)"] := by
    rw [hkey, resolve?_step hfamily (by decide) fun _ => rfl]
    decide
  obtain ⟨utility, hlisted⟩ := Option.isSome_iff_exists.1 ((isSome_search_iff "-mt-2.5").2 hmem)
  rw [hlisted, (listed_steps_are_read_steps hfamily true hkey (by decide) hlisted hread).2 (by decide)]

/-- **The catalog sets a minimum height of zero** that is a plain zero and no multiple of the spacing unit, as it would
be read. -/
theorem minimum_height_is_listed_again :
    standard.search "min-h-0" = some { declarations := [.property "min-height" "0"] } ∧
    Dynamic.resolve? "min-h-0" = some [.property "min-height" "calc(var(--spacing) * 0)"] ∧
    ¬ ∀ family ∈ Spacing.families, ∀ (negative : Bool) (step : String) (utility : Utility)
        (declarations : List Declaration), '/' ∉ step.toList →
      standard.search (signText negative ++ member family.name step) = some utility →
      Dynamic.resolve? (signText negative ++ member family.name step) = some declarations →
        utility.declarations = declarations ∧ utility.suffix = none ∧ utility.keyframes = none := by
  have hlisted : standard.search "min-h-0" = some { declarations := [.property "min-height" "0"] } :=
    search_of_mem_overrides (e := entryOfEach "min-h-0" ["min-height"] "0") List.mem_cons_self
  have hfamily : (⟨"min-h", ["min-height"], false⟩ : Spacing.Family) ∈ Spacing.families := by decide
  have hread : Dynamic.resolve? "min-h-0" = some [.property "min-height" "calc(var(--spacing) * 0)"] := by
    have hstep := resolve?_step hfamily (show "0" ∈ Spacing.steps by decide) (show false = true → _ from nofun)
    exact hstep.trans (by decide)
  refine ⟨hlisted, hread, fun hall => ?_⟩
  have hagree := (hall _ hfamily false "0" _ _ (by decide) hlisted hread).1
  exact absurd hagree (by decide)

end AtomicCss.Catalog
