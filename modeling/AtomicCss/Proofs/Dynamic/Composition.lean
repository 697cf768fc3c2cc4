import AtomicCss.Proofs.Color.Family
import AtomicCss.Proofs.Numeric.Literals

/-!
# Dynamic utilities put together

The counterpart of taking utilities apart: a utility is made from its parts, and this module says that the reading
finds the same parts again. A separator inside of a part would mislead it, so every lemma asks for as much as is needed
to rule that out.

## The architecture

* **`isModifierChar_of_opacity?`** — the characters of a modifier; no slash is one, so the last slash is the one in
  front of it.
* **`assign?_of_mem_templates`**, **`assign?_of_mem_families`** — what the families of the two tables set.
* **`splitHint_append`**, **`splitHint_of_not_mem`** — a value with a type hint in front, and without one.
* **`resolve?_colorWithOpacity`**, **`resolve?_bracketed`**, **`resolve?_property`**, **`resolve?_propertyWithOpacity`**,
  **`resolve?_parenthesized`** — what the utility sets.
-/

namespace AtomicCss.Dynamic

open Text (isIdentifier isNameChar)

variable {family value : String} {declarations : List Declaration}

/-! ## Colors with an opacity -/

/-- The characters of which modifiers are made. -/
def isModifierChar (c : Char) : Bool :=
  isNameChar c || ['.', '+', '%', '[', ']', '(', ')'].contains c

theorem isModifierChar_of_isDigit {c : Char} (h : c.isDigit = true) : isModifierChar c = true := by
  simp [isModifierChar, isNameChar, Char.isAlphanum, h]

theorem isModifierChar_of_isPlainNumeral {number : String} (h : isPlainNumeral number = true) :
    ∀ c ∈ number.toList, isModifierChar c = true := by
  intro c hc
  rcases Text.isDigit_or_of_isPlainNumeral h c hc with hdigit | rfl
  · exact isModifierChar_of_isDigit hdigit
  · decide

theorem isModifierChar_of_isLiteralChar {c : Char} (h : isLiteralChar c = true) : isModifierChar c = true := by
  simp only [isLiteralChar, Bool.or_eq_true, beq_iff_eq] at h
  rcases h with ((((hdigit | rfl) | rfl) | rfl) | rfl) | rfl
  · exact isModifierChar_of_isDigit hdigit
  all_goals decide

theorem modifierTexts_pass : (["[", "]", "%", "(--", ")"].all fun text => text.toList.all isModifierChar) = true := by
  decide

/-- **A modifier is a number, with or without brackets, or a reference**, and holds no other characters. -/
theorem isModifierChar_of_opacity? {modifier percentage : String} (h : opacity? modifier = some percentage) :
    ∀ c ∈ modifier.toList, isModifierChar c = true := by
  have hfixed : ∀ text ∈ ["[", "]", "%", "(--", ")"], ∀ c ∈ text.toList, isModifierChar c = true := fun text htext =>
    List.all_eq_true.1 (List.all_eq_true.1 modifierTexts_pass text htext)
  rcases opacity?_cases h with ⟨hnumeral, -⟩ | ⟨number, hnumeral, rfl, -⟩ | ⟨inner, fraction, rfl, hparse, -⟩ |
    hreference
  · exact isModifierChar_of_isPlainNumeral hnumeral
  · simp only [String.toList_append, List.forall_mem_append]
    exact ⟨⟨hfixed _ (by simp), isModifierChar_of_isPlainNumeral hnumeral, hfixed _ (by simp)⟩, hfixed _ (by simp)⟩
  · simp only [String.toList_append, List.forall_mem_append]
    exact ⟨⟨hfixed _ (by simp), fun c hc => isModifierChar_of_isLiteralChar (isLiteralChar_of_parse? hparse c hc)⟩,
      hfixed _ (by simp)⟩
  · obtain ⟨name, hname, rfl, -⟩ := reference?_eq_some_iff.1 hreference
    simp only [String.toList_append, List.forall_mem_append]
    refine ⟨⟨hfixed _ (by simp), fun c hc => ?_⟩, hfixed _ (by simp)⟩
    rw [isModifierChar, Text.all_isNameChar_of_isIdentifier hname c hc, Bool.true_or]

/-- **A modifier holds no slash.** -/
theorem slash_not_mem_of_opacity? {modifier percentage : String} (h : opacity? modifier = some percentage) :
    '/' ∉ modifier.toList := fun hmem =>
  absurd (isModifierChar_of_opacity? h _ hmem) (by decide)

/-- A modifier is not empty. -/
theorem ne_empty_of_opacity? {modifier percentage : String} (h : opacity? modifier = some percentage) :
    modifier ≠ "" := by
  rintro rfl
  rw [show opacity? "" = none by decide] at h
  cases h

theorem splitOpacity?_append {color modifier percentage : String} (hdepth : Text.depth color.toList = 0)
    (hne : color ≠ "") (h : opacity? modifier = some percentage) :
    splitOpacity? (color ++ "/" ++ modifier) = some (color, percentage) := by
  have hcut : Text.cutLastOutside? '/' (color ++ "/" ++ modifier) = some (color, modifier) :=
    Text.cutLastOutside?_append hdepth (slash_not_mem_of_opacity? h) hne (ne_empty_of_opacity? h)
  rw [splitOpacity?, hcut]
  simp [h]

/-- There has to be something in front of the slash. -/
theorem splitOpacity?_without_color {modifier percentage : String} (h : opacity? modifier = some percentage) :
    splitOpacity? ("/" ++ modifier) = none := by
  have hcut : Text.cutLastOutside '/' 0 ([] ++ '/' :: modifier.toList) = some ([], modifier.toList) :=
    Text.cutLastOutside_append rfl (slash_not_mem_of_opacity? h)
  have hchars : ("/" ++ modifier).toList = [] ++ '/' :: modifier.toList := by simp
  rw [splitOpacity?, Text.cutLastOutside?, hchars, hcut]
  rfl

/-- **A family, a color and an opacity.** The color is authored or referred to, so that it does not begin like a
name. -/
theorem resolve?_colorWithOpacity {color modifier percentage : String} {properties : List String}
    (hmem : (family, properties) ∈ ColorFamily.table) {c : Char} {cs : List Char} (hcolor : color.toList = c :: cs)
    (hc : isNameChar c = false) (hdepth : Text.depth color.toList = 0) (hvalue : opaqueColor? color = some value)
    (hopacity : opacity? modifier = some percentage) :
    resolve? (family ++ "-" ++ color ++ "/" ++ modifier) =
      some (Declaration.each properties (colorMix value percentage)) := by
  have hne : color ≠ "" := by
    rintro rfl
    cases hcolor
  have hbase : family ++ "-" ++ color ++ "/" ++ modifier = family ++ "-" ++ (color ++ "/" ++ modifier) := by
    simp only [String.append_assoc]
  have htext : (color ++ "/" ++ modifier).toList = c :: (cs ++ ("/" ++ modifier).toList) := by simp [hcolor]
  have hsplit : ColorFamily.split? (family ++ "-" ++ (color ++ "/" ++ modifier)) =
      some (properties, color ++ "/" ++ modifier) :=
    ColorFamily.split?_append hmem htext hc
  refine resolve?_eq_some_iff.2 ⟨.colorWithOpacity, Bool.and_eq_true_iff.2 ⟨?_, ?_⟩, ?_⟩
  · exact Text.contains_iff.2 ⟨_, _, rfl⟩
  · rw [hbase, hsplit]
    rfl
  · show colorWithOpacity? _ = _
    rw [colorWithOpacity?, hbase, hsplit]
    simp [splitOpacity?_append hdepth hne hopacity, hvalue]

/-! ## What a family sets -/

/-- A known family has no sign, since it begins with a letter. -/
theorem unsigned?_of_mem_knownFamilies (h : family ∈ knownFamilies) : unsigned? family = none := by
  have hstart := startsWith_dash_of_mem_knownFamilies h ""
  rw [String.append_empty, Text.startsWith_eq_isSome_after?, Option.isSome_eq_false_iff,
    Option.isNone_iff_eq_none] at hstart
  rw [unsigned?, hstart, Option.filter_none]

/-- Whether a family does not look at the value. -/
def isBlind (family : String) : Bool :=
  family != "bg" && family != "font" && (ColorFamily.table.lookup family).isNone

theorem sniff?_of_isBlind (h : isBlind family = true) (value : String) : sniff? family value = none := by
  simp only [isBlind, Bool.and_eq_true, bne_iff_ne, Option.isNone_iff_eq_none] at h
  rw [sniff?, if_neg h.1.1, if_neg h.1.2, h.2, Option.map_none]

theorem templates_found : (templates.all fun entry =>
    isBlind entry.1 && templates.lookup entry.1 == some entry.2) = true := by
  decide

theorem families_found : (Catalog.Spacing.families.all fun spacing =>
    isBlind spacing.name && (templates.lookup spacing.name).isNone &&
      Catalog.Spacing.family? spacing.name == some spacing) = true := by
  decide

theorem assign?_of_mem_templates {entry : String × Template} (h : entry ∈ templates) (value : String) :
    assign? entry.1 none value = some (entry.2.fill value) := by
  have hfound := List.all_eq_true.1 templates_found entry h
  rw [Bool.and_eq_true, beq_iff_eq] at hfound
  have hsign := unsigned?_of_mem_knownFamilies (mem_knownFamilies_of_templates hfound.2)
  rw [assign?, hsign, plain?, sniff?_of_isBlind hfound.1, hfound.2]
  rfl

theorem assign?_of_mem_families {spacing : Catalog.Spacing.Family} (h : spacing ∈ Catalog.Spacing.families)
    (value : String) :
    assign? spacing.name none value = some (Declaration.each spacing.properties value) := by
  have hfound := List.all_eq_true.1 families_found spacing h
  rw [Bool.and_eq_true, Bool.and_eq_true, beq_iff_eq, Option.isNone_iff_eq_none] at hfound
  have hsign := unsigned?_of_mem_knownFamilies (mem_knownFamilies_of_family? hfound.2)
  rw [assign?, hsign, plain?, sniff?_of_isBlind hfound.1.1, hfound.1.2, hfound.2]
  rfl

/-! ## Type hints -/

theorem hints_plain : (hints.all fun hint => !hint.toList.contains '_') = true := by
  decide

/-- A type hint is a name without an underscore, so it is read as it stands. -/
theorem not_mem_of_mem_hints {hint : String} (h : hint ∈ hints) :
    '_' ∉ hint.toList ∧ '\\' ∉ hint.toList ∧ ':' ∉ hint.toList := by
  have hname := isIdentifier_of_mem_hints h
  refine ⟨fun hmem => ?_, Text.not_mem_of_isIdentifier hname rfl, Text.not_mem_of_isIdentifier hname rfl⟩
  have hplain := List.all_eq_true.1 hints_plain hint h
  rw [List.contains_iff_mem.2 hmem] at hplain
  cases hplain

theorem isHint_of_mem_hints {hint : String} (h : hint ∈ hints) : isHint hint = true := by
  obtain ⟨entry, hentry, rfl⟩ := List.mem_map.1 h
  exact List.any_eq_true.2 ⟨entry, hentry, beq_self_eq_true _⟩

/-- A hint and a colon in front of a value are a type hint, whatever the value is. -/
theorem splitHint_append {hint : String} (h : hint ∈ hints) (raw : String) :
    splitHint (hint ++ ":" ++ raw) = (some hint, raw) := by
  have hcut : Text.cut? ":" (hint ++ ":" ++ raw) = some (hint, raw) :=
    Text.cut?_append [] rfl (by simp) (not_mem_of_mem_hints h).2.2 raw
  rw [splitHint, hcut]
  exact if_pos (isHint_of_mem_hints h)

/-- A value that no type hint is split off is left as it is. -/
theorem splitHint_of_fst {raw : String} (h : (splitHint raw).1 = none) : splitHint raw = (none, raw) := by
  rcases splitHint_cases raw with hnone | ⟨hint, rest, -, -, hsome⟩
  · exact hnone
  · rw [hsome] at h
    cases h

/-- Without a colon there is no type hint. -/
theorem splitHint_of_not_mem {raw : String} (h : ':' ∉ raw.toList) : splitHint raw = (none, raw) := by
  rcases splitHint_cases raw with hsplit | ⟨hint, value, -, rfl, -⟩
  · exact hsplit
  · exact absurd (by simp) h

/-! ## Values and references -/

/-- A name, a dash and brackets are read as a family and a value. -/
theorem bracketed?_append (h : isIdentifier family = true) (raw : String) :
    bracketed? (family ++ "-[" ++ raw ++ "]") =
      (arbitrary? (splitHint raw).2).bind (assign? family (splitHint raw).1) := by
  have hopen : '[' ∉ family.toList := Text.not_mem_of_isIdentifier h (by decide)
  have hstart : Text.after? "[" (family ++ "-[" ++ raw ++ "]") = none := by
    rw [Option.eq_none_iff_forall_ne_some]
    intro rest hrest
    have hchars := congrArg String.toList (Text.after?_eq_some_iff.1 hrest)
    simp only [String.toList_append, List.append_assoc] at hchars
    exact Text.ne_of_isIdentifier h (by decide) _ _ hchars
  have hcut : Text.cut? "-[" (family ++ "-[" ++ (raw ++ "]")) = some (family, raw ++ "]") :=
    Text.cut?_append ['-'] rfl (by decide) hopen _
  have hend : Text.before? "]" (raw ++ "]") = some raw := Text.before?_eq_some_iff.2 rfl
  have hne : ¬ family.isEmpty = true := by simpa using (Text.isIdentifier_iff.1 h).1
  rw [bracketed?, Text.enclosed?, hstart, Option.bind_none, String.append_assoc, hcut]
  show (if family.isEmpty then none
    else (arbitrary? (splitHint ((Text.before? "]" (raw ++ "]")).getD (raw ++ "]"))).2).bind
      (assign? family (splitHint ((Text.before? "]" (raw ++ "]")).getD (raw ++ "]"))).1)) = _
  rw [if_neg hne, hend, Option.getD_some]

/-- **A family and a value in brackets.** -/
theorem resolve?_bracketed {raw authored : String} {hint : Option String} (hname : isIdentifier family = true)
    (hsplit : splitHint raw = (hint, authored)) (hvalue : arbitrary? authored = some value)
    (hassign : assign? family hint value = some declarations) :
    resolve? (family ++ "-[" ++ raw ++ "]") = some declarations := by
  refine resolve?_eq_some_iff.2 ⟨.bracketed, Text.endsWith_iff.2 ⟨_, rfl⟩, ?_⟩
  show bracketed? _ = _
  rw [bracketed?_append hname, hsplit, hvalue, Option.bind_some, hassign]

/-- **A property and a value in brackets.** -/
theorem resolve?_property {name raw : String} (hname : isIdentifier name = true)
    (hstart : Text.startsWith "_" name = false) (hvalue : arbitrary? raw = some value) :
    resolve? ("[" ++ name ++ ":" ++ raw ++ "]") = some [.property name value] := by
  have hbase : "[" ++ name ++ ":" ++ raw ++ "]" = "[" ++ (name ++ ":" ++ raw) ++ "]" := by
    simp only [String.append_assoc]
  have hcut : Text.cut? ":" (name ++ ":" ++ raw) = some (name, raw) :=
    Text.cut?_append [] rfl (by simp) (Text.not_mem_of_isIdentifier hname rfl) raw
  refine resolve?_eq_some_iff.2 ⟨.bracketed, Text.endsWith_iff.2 ⟨_, rfl⟩, ?_⟩
  show bracketed? _ = _
  rw [bracketed?, hbase, Text.enclosed?_append]
  show property? _ = _
  rw [property?, hcut, Option.bind_eq_bind, Option.bind_some]
  simp [hname, hstart, hvalue]

theorem cutModifier_of_not_mem {cs : List Char} (h : '/' ∉ cs) : cutModifier cs = none := by
  rw [Option.eq_none_iff_forall_ne_some]
  rintro ⟨left, right⟩ hcut
  rw [(cutModifier_eq_some hcut).1] at h
  exact h (by simp)

theorem cutModifier_cons {cs left right : List Char} (h : cutModifier cs = some (left, right)) (c : Char) :
    cutModifier (c :: cs) = some (c :: left, right) := by
  rw [cutModifier.eq_def]
  simp only [h]

/-- A modifier without a slash is cut off behind the last bracket. -/
theorem cutModifier_append {right : List Char} (hne : right ≠ []) (h : '/' ∉ right) (left : List Char) :
    cutModifier (left ++ ']' :: '/' :: right) = some (left, right) := by
  induction left with
  | nil =>
    obtain ⟨c, cs, rfl⟩ := List.exists_cons_of_ne_nil hne
    have hslash : cutModifier ('/' :: c :: cs) = none := by
      rw [cutModifier.eq_def]
      simp [cutModifier_of_not_mem h]
    rw [List.nil_append, cutModifier, hslash]
  | cons c left ih => exact cutModifier_cons ih c

/-- **A custom property, a value in brackets and an opacity.** -/
theorem resolve?_propertyWithOpacity {name raw modifier percentage : String} (hname : isIdentifier name = true)
    (hline : '\n' ∉ raw.toList) (hvalue : arbitrary? raw = some value) (hopacity : opacity? modifier = some percentage) :
    resolve? ("[--" ++ name ++ ":" ++ raw ++ "]/" ++ modifier) = some [.property ("--" ++ name) value,
      .supports colorMixSupport [("--" ++ name, colorMix value percentage)]] := by
  have hbase : "[--" ++ name ++ ":" ++ raw ++ "]/" ++ modifier =
      "[--" ++ (name ++ ":" ++ (raw ++ "]/" ++ modifier)) := by
    simp only [String.append_assoc]
  have hcut : (Text.after? "[--" ("[--" ++ name ++ ":" ++ raw ++ "]/" ++ modifier)).bind (Text.cut? ":") =
      some (name, raw ++ "]/" ++ modifier) := by
    rw [hbase, Text.after?_eq_some_iff.2 rfl, Option.bind_some]
    exact Text.cut?_append [] rfl (by simp) (Text.not_mem_of_isIdentifier hname rfl) _
  have hmodifier : cutModifier (raw ++ "]/" ++ modifier).toList = some (raw.toList, modifier.toList) := by
    have hchars : (raw ++ "]/" ++ modifier).toList = raw.toList ++ ']' :: '/' :: modifier.toList := by simp
    rw [hchars]
    refine cutModifier_append ?_ (slash_not_mem_of_opacity? hopacity) _
    exact String.toList_eq_nil_iff.not.2 (ne_empty_of_opacity? hopacity)
  have hraw : raw.toList.isEmpty = false := by
    rw [List.isEmpty_eq_false_iff]
    intro hnil
    rw [String.toList_eq_nil_iff.1 hnil, show arbitrary? "" = none by decide] at hvalue
    cases hvalue
  have hmodifierLine : '\n' ∉ modifier.toList := fun hmem =>
    absurd (isModifierChar_of_opacity? hopacity _ hmem) (by decide)
  have hlines : (raw ++ "]/" ++ modifier).toList.contains '\n' = false := by
    rw [← Bool.not_eq_true, List.contains_iff_mem]
    simp [hline, hmodifierLine]
  refine resolve?_eq_some_iff.2 ⟨.propertyWithOpacity, Bool.and_eq_true_iff.2 ⟨?_, ?_⟩, ?_⟩
  · exact Text.startsWith_iff.2 ⟨_, hbase⟩
  · exact Text.contains_iff.2 ⟨_, _, rfl⟩
  · show propertyWithOpacity? _ = _
    rw [propertyWithOpacity?, hcut, Option.bind_eq_bind, Option.bind_some]
    dsimp only
    rw [hmodifier, Option.bind_eq_bind, Option.bind_some]
    simp only [hname, hraw, hlines, String.ofList_toList, hvalue, hopacity]
    rfl

/-- A name, a dash and a parenthesis are read as a family and a reference. -/
theorem parenthesized?_append (hname : isIdentifier family = true) (rest : String) :
    parenthesized? (family ++ "-(" ++ rest) = (reference? ("(" ++ rest)).bind (assign? family none) := by
  have hopen : '(' ∉ family.toList := Text.not_mem_of_isIdentifier hname (by decide)
  have hcut : Text.cut? "-(" (family ++ "-(" ++ rest) = some (family, rest) :=
    Text.cut?_append ['-'] rfl (by decide) hopen _
  have hne : ¬ family.isEmpty = true := by simpa using (Text.isIdentifier_iff.1 hname).1
  rw [parenthesized?, hcut, Option.bind_eq_bind, Option.bind_some]
  exact if_neg hne

/-- **A family and a reference in parentheses.** -/
theorem resolve?_parenthesized {name : String} (hfamily : isIdentifier family = true)
    (hname : isIdentifier name = true)
    (hassign : assign? family none ("var(--" ++ name ++ ")") = some declarations) :
    resolve? (family ++ "-(--" ++ name ++ ")") = some declarations := by
  have hbase : family ++ "-(--" ++ name ++ ")" = family ++ "-(" ++ ("--" ++ name ++ ")") := by
    rw [show "-(--" = "-(" ++ "--" from rfl]
    simp only [String.append_assoc]
  have hreference : reference? ("(" ++ ("--" ++ name ++ ")")) = some ("var(--" ++ name ++ ")") := by
    refine reference?_eq_some_iff.2 ⟨name, hname, ?_, rfl⟩
    rw [show "(--" = "(" ++ "--" from rfl]
    simp only [String.append_assoc]
  refine resolve?_eq_some_iff.2 ⟨.parenthesized, Bool.and_eq_true_iff.2 ⟨?_, ?_⟩, ?_⟩
  · exact Text.endsWith_iff.2 ⟨_, rfl⟩
  · exact Text.contains_iff.2 ⟨family, name ++ ")", by simp only [String.append_assoc]⟩
  · show parenthesized? _ = _
    rw [hbase, parenthesized?_append hfamily, hreference, Option.bind_some, hassign]

end AtomicCss.Dynamic
