import AtomicCss.Proofs.Dynamic.Composition

/-!
# A minus sign negates the value

A utility may have a minus sign in front: of a number, of a value in brackets or of a reference. Which families allow
it is written down in four places, and each of the three forms looks for the sign on its own. This module says that they
agree on what it means. A utility with a sign is one exactly if it is one without, and its family allows the sign; it
sets the same properties, with the negated value in place of the value.

Only what stands behind the last dash of the family decides which of the forms reads the utility (`Operand`). The sign
does not interfere with it, since no other form begins with a dash, and no family that allows a sign begins like a
family of colors.

## The architecture

* **`Operand`** — what a family is followed by, the families that allow a sign in front of it (`Operand.signed`), and
  what its negation is (`Operand.Negates`).
* **`Operand.read?`**, **`resolve?_operand`** — the one form that reads a utility, with the sign or without.
* **`Operand.mem_signed_of_read?`**, **`Operand.exists_template_of_read?`** — what the form makes of a sign.
* **`sign_negates_value`** — all together.
-/

namespace AtomicCss.Dynamic

open Text (isIdentifier isNameChar)

/-! ## Operands -/

/-- What stands behind the dash of a family that allows a sign. -/
inductive Operand where
  /-- A number, which ends in a digit. -/
  | step (s : String)
  /-- `[raw]` -/
  | brackets (raw : String)
  /-- `(--name)` -/
  | reference (name : String)
  deriving DecidableEq, Repr

/-- The families whose numbers have a unit and may be negative. -/
def signedNumeric : List String :=
  (numericFamilies.filter fun entry => entry.2.signed).map Prod.fst

/-- The spacing families whose values may be negative. -/
def signedSpacing : List String :=
  (Catalog.Spacing.families.filter fun spacing => spacing.signed).map fun spacing => spacing.name

/-- What a family sets to a number. -/
def stepTemplate? (family : String) : Option Template :=
  match numericFamilies.lookup family with
  | some known => some known.template
  | none =>
    match translations.lookup family with
    | some axis => some (translateTemplate axis)
    | none => (Catalog.Spacing.family? family).map fun spacing => Template.each spacing.properties

/-- What a family that does not look at the value sets to it. -/
def valueTemplate? (family : String) : Option Template :=
  match templates.lookup family with
  | some template => some template
  | none => (Catalog.Spacing.family? family).map fun spacing => Template.each spacing.properties

namespace Operand

def text : Operand → String
  | step s => s
  | brackets raw => "[" ++ raw ++ "]"
  | reference name => "(--" ++ name ++ ")"

/-- A family and a dash in front of the operand are where the utility is cut: a number has no dash, and in front of a
bracket the family has none of the same kind with a dash. A value has no type hint. -/
def Follows (family : String) : Operand → Prop
  | step s => '-' ∉ s.toList ∧ ∃ c ∈ s.toList.getLast?, c.isDigit = true
  | brackets raw => ¬ ['-', '['] <:+: family.toList ∧ (splitHint raw).1 = none
  | reference _ => ¬ ['-', '('] <:+: family.toList

/-- The families that allow a sign. -/
def signed : Operand → List String
  | step _ => signedNumeric ++ signedSpacing ++ translations.map Prod.fst
  | brackets _ => signedSpacing ++ negatable
  | reference _ => signedSpacing ++ negatable

/-- What a family sets to the value of the operand, with a sign or without. -/
def template? (family : String) : Operand → Option Template
  | step _ => stepTemplate? family
  | brackets _ => valueTemplate? family
  | reference _ => valueTemplate? family

/-- The values of an operand without a sign and with one. -/
inductive Negates : Operand → String → String → Prop
  /-- The sign of a number with a unit stands in front of the number. -/
  | unit (s : String) (measure : Measure) : Negates (step s) (s ++ measure.unit) ("-" ++ (s ++ measure.unit))
  /-- The sign of a multiple of the spacing unit stands in front of the factor. -/
  | multiple (s : String) :
      Negates (step s) ("calc(var(--spacing) * " ++ s ++ ")") ("calc(var(--spacing) * -" ++ s ++ ")")
  /-- The sign of a fraction stands in front of the whole. -/
  | fraction {left right : String} {numerator denominator : Nat} (hleft : count? left = some numerator)
      (hright : count? right = some denominator) :
      Negates (step (left ++ "/" ++ right))
        ("calc(" ++ toString numerator ++ "/" ++ toString denominator ++ " * 100%)")
        ("calc(" ++ toString numerator ++ "/" ++ toString denominator ++ " * -100%)")
  /-- A value in brackets is multiplied. -/
  | brackets {raw value : String} (hvalue : arbitrary? raw = some value) :
      Negates (brackets raw) value ("calc(" ++ value ++ " * -1)")
  /-- A reference is multiplied. -/
  | reference (name : String) :
      Negates (reference name) ("var(--" ++ name ++ ")") ("calc(" ++ ("var(--" ++ name ++ ")") ++ " * -1)")

/-- The form that reads a family with the operand. -/
def form : Operand → Form
  | step _ => .numeric
  | brackets _ => .bracketed
  | reference _ => .parenthesized

/-- What that form makes of a family and the operand, with a sign or without. -/
def read? (family : String) (negative : Bool) : Operand → Option (List Declaration)
  | step s =>
    match numericFamilies.lookup family with
    | some known => measured? known s negative
    | none => spaced? family s negative
  | brackets raw => (arbitrary? raw).bind (assign? (signText negative ++ family) none)
  | reference name => (reference? ("(--" ++ name ++ ")")).bind (assign? (signText negative ++ family) none)

end Operand

variable {family : String} {operand : Operand} {negative : Bool} {declarations : List Declaration}

/-! ## Signed families -/

/-- The families that allow a sign in front of some operand. -/
def signedFamilies : List String :=
  signedNumeric ++ signedSpacing ++ translations.map Prod.fst ++ negatable

theorem Operand.mem_signedFamilies (h : family ∈ operand.signed) : family ∈ signedFamilies := by
  unfold signedFamilies
  cases operand <;> simp only [signed, List.mem_append] at h ⊢ <;> tauto

/-- A family that allows a sign is known, and it does not begin as a family does that takes a color or a hint. -/
theorem signedFamilies_pass : (signedFamilies.all fun family => knownFamilies.contains family &&
    (ColorFamily.table.map Prod.fst ++ typedTemplates.map fun entry => entry.1.1).all (beginApart family)) = true := by
  decide +kernel

theorem mem_knownFamilies_of_signed (h : family ∈ signedFamilies) : family ∈ knownFamilies :=
  List.contains_iff_mem.1 (Bool.and_eq_true_iff.1 (List.all_eq_true.1 signedFamilies_pass _ h)).1

theorem beginApart_of_signed (h : family ∈ signedFamilies) {other : String}
    (hother : other ∈ ColorFamily.table.map Prod.fst ++ typedTemplates.map fun entry => entry.1.1) :
    beginApart family other = true :=
  List.all_eq_true.1 (Bool.and_eq_true_iff.1 (List.all_eq_true.1 signedFamilies_pass _ h)).2 _ hother

/-! ## The form of a signed utility -/

/-- A text that begins with a sign, or with a family that allows one. -/
def BeginsSigned (base : String) : Prop :=
  (∃ rest, base = "-" ++ rest) ∨ ∃ family rest, family ∈ signedFamilies ∧ base = family ++ "-" ++ rest

theorem not_beginsSigned {other : String}
    (hother : other ∈ ColorFamily.table.map Prod.fst ++ typedTemplates.map fun entry => entry.1.1)
    (hknown : other ∈ knownFamilies) (rest : String) : ¬ BeginsSigned (other ++ "-" ++ rest) := by
  rintro (⟨rest', heq⟩ | ⟨family, rest', hmem, heq⟩)
  · have hstart := startsWith_dash_of_mem_knownFamilies hknown ("-" ++ rest)
    rw [← String.append_assoc, Text.startsWith_iff.2 ⟨rest', heq⟩] at hstart
    cases hstart
  · have hother' : (other ++ "-").toList <+: (other ++ "-" ++ rest).toList := ⟨rest.toList, String.toList_append.symm⟩
    have hfamily : (family ++ "-").toList <+: (other ++ "-" ++ rest).toList :=
      ⟨rest'.toList, by rw [heq, ← String.toList_append]⟩
    exact not_prefix_of_beginApart (beginApart_of_signed hmem hother) hfamily hother'

theorem ne_bracket_of_beginsSigned {base : String} (h : BeginsSigned base) (rest : String) : base ≠ "[" ++ rest := by
  rintro rfl
  rcases h with ⟨rest', heq⟩ | ⟨family, rest', hmem, heq⟩
  · have hchars := congrArg String.toList heq
    simp at hchars
  · have hname := isIdentifier_of_mem_knownFamilies (mem_knownFamilies_of_signed hmem)
    have hchars := congrArg String.toList heq.symm
    simp only [String.toList_append, List.append_assoc] at hchars
    exact Text.ne_of_isIdentifier hname (by decide) _ _ hchars

/-- The forms that may have a sign in front. -/
def signedForms : List Form :=
  [.bracketed, .parenthesized, .numeric]

/-- **What begins with a sign or with a signed family has one of three forms.** -/
theorem mem_signedForms_of_read? {base : String} {form : Form} (hbegins : BeginsSigned base)
    (h : form.read? base = some declarations) : form ∈ signedForms := by
  cases form with
  | propertyWithOpacity =>
    obtain ⟨name, raw, modifier, hbase, -⟩ := shape_of_propertyWithOpacity? h
    refine absurd ?_ (ne_bracket_of_beginsSigned hbegins ("--" ++ name ++ ":" ++ raw ++ "]/" ++ modifier))
    rw [hbase, show "[--" = "[" ++ "--" from rfl]
    simp only [String.append_assoc]
  | colorWithOpacity =>
    obtain ⟨family, color, modifier, rfl, hmem, -⟩ := shape_of_colorWithOpacity? h
    rw [String.append_assoc, String.append_assoc] at hbegins
    exact absurd hbegins (not_beginsSigned (List.mem_append_left _ hmem) (mem_knownFamilies_of_mem_table hmem) _)
  | bracketed => decide
  | parenthesized => decide
  | numeric => decide
  | typedParenthesized =>
    obtain ⟨family, hint, name, rfl, -, htyped⟩ := typedParenthesized?_eq_some h
    obtain ⟨template, hlookup, -⟩ := Option.map_eq_some_iff.1 htyped
    obtain ⟨entry, hentry, hkey⟩ := List.mem_map.1 (mem_map_fst_of_lookup hlookup)
    have hmem : family ∈ typedTemplates.map fun entry => entry.1.1 := List.mem_map.2 ⟨entry, hentry, by rw [hkey]⟩
    have hbase : family ++ "-" ++ "(" ++ hint ++ ":--" ++ name ++ ")" =
        family ++ "-" ++ ("(" ++ hint ++ ":--" ++ name ++ ")") := by
      simp only [String.append_assoc]
    rw [hbase] at hbegins
    exact absurd hbegins
      (not_beginsSigned (List.mem_append_right _ hmem) (mem_knownFamilies_of_typed? htyped).1 _)

/-- Which of the three it is, the last character tells. -/
def formOfLast (c : Char) : Form :=
  if c = ']' then .bracketed else if c = ')' then .parenthesized else .numeric

theorem getLast?_of_endsWith {base stop : String} {c : Char} (h : Text.endsWith stop base = true)
    (hstop : stop.toList = [c]) : base.toList.getLast? = some c := by
  obtain ⟨front, rfl⟩ := Text.endsWith_iff.1 h
  simp [hstop]

theorem exists_last_of_fits {base : String} {form : Form} (hform : form ∈ signedForms) (h : form.fits base = true) :
    ∃ c, base.toList.getLast? = some c ∧ form = formOfLast c := by
  have hcases : form = .bracketed ∨ form = .parenthesized ∨ form = .numeric := by simpa [signedForms] using hform
  rcases hcases with rfl | rfl | rfl
  · exact ⟨']', getLast?_of_endsWith h rfl, rfl⟩
  · exact ⟨')', getLast?_of_endsWith (Bool.and_eq_true_iff.1 h).1 rfl, rfl⟩
  · cases hlast : base.toList.getLast? with
    | none => simp [Form.fits, hlast] at h
    | some c =>
      have hdigit : c.isDigit = true := by simpa [Form.fits, hlast] using h
      have hsquare : c ≠ ']' := by
        rintro rfl
        cases hdigit
      have hround : c ≠ ')' := by
        rintro rfl
        cases hdigit
      exact ⟨c, rfl, by rw [formOfLast, if_neg hsquare, if_neg hround]⟩

theorem Operand.form_mem (operand : Operand) : operand.form ∈ signedForms := by
  cases operand <;> simp [form, signedForms]

theorem Operand.fits_form (h : operand.Follows family) (front : String) :
    operand.form.fits (front ++ "-" ++ operand.text) = true := by
  cases operand with
  | step s =>
    obtain ⟨-, c, hlast, hdigit⟩ := h
    have hlast : (front ++ "-" ++ s).toList.getLast? = some c := by
      rw [String.toList_append, List.getLast?_append, hlast]
      rfl
    rw [form, text, Form.fits, hlast]
    exact hdigit
  | brackets raw =>
    exact Text.endsWith_iff.2 ⟨front ++ "-" ++ ("[" ++ raw), by simp only [text, String.append_assoc]⟩
  | reference name =>
    refine Bool.and_eq_true_iff.2 ⟨Text.endsWith_iff.2 ⟨front ++ "-" ++ ("(--" ++ name), ?_⟩,
      Text.contains_iff.2 ⟨front, name ++ ")", ?_⟩⟩
    · simp only [text, String.append_assoc]
    · rw [show "-(--" = "-" ++ "(--" from rfl]
      simp only [text, String.append_assoc]

/-- **The operand decides the form.** -/
theorem resolve?_eq_read? (h : operand.Follows family) {front : String}
    (hbegins : BeginsSigned (front ++ "-" ++ operand.text)) :
    resolve? (front ++ "-" ++ operand.text) = operand.form.read? (front ++ "-" ++ operand.text) := by
  have hfits := operand.fits_form h front
  refine Option.ext fun declarations => ⟨fun hresolve => ?_, fun hread => ?_⟩
  · obtain ⟨form, hfits', hread⟩ := exists_form_of_resolve? hresolve
    obtain ⟨c, hlast, hform⟩ := exists_last_of_fits operand.form_mem hfits
    obtain ⟨c', hlast', rfl⟩ := exists_last_of_fits (mem_signedForms_of_read? hbegins hread) hfits'
    obtain rfl := Option.some.inj (hlast.symm.trans hlast')
    rwa [hform]
  · exact resolve?_eq_some_iff.2 ⟨operand.form, hfits, hread⟩

/-! ## What the form reads -/

/-- **A sign, a family and a dash with a bracket behind it** are found again, where the family has no such bracket. -/
theorem eq_of_sign_append {family' : String} {b : Char} {rest rest' : List Char} (hb : isNameChar b = false)
    (hfamily : ¬ ['-', b] <:+: family.toList) (hname : isIdentifier family' = true)
    (heq : (signText negative ++ family).toList ++ '-' :: b :: rest = family'.toList ++ '-' :: b :: rest') :
    signText negative ++ family = family' ∧ rest = rest' := by
  have hne : '-' ≠ b := by
    rintro rfl
    cases hb
  have hname' {cs : List Char} (hcs : ∀ c ∈ cs, c ∈ family'.toList) : ¬ ['-', b] <:+: cs := fun hinfix =>
    Text.not_mem_of_isIdentifier hname hb (hcs b (List.IsInfix.subset hinfix (by simp)))
  cases negative with
  | false =>
    rw [show signText false = "" from rfl, String.empty_append] at heq ⊢
    obtain ⟨hleft, hrest⟩ := Text.eq_of_pair hne hfamily (hname' fun _ hc => hc) heq
    exact ⟨String.toList_injective hleft, hrest⟩
  | true =>
    rw [show signText true = "-" from rfl, String.toList_append] at heq
    cases hchars : family'.toList with
    | nil => exact absurd (String.toList_eq_nil_iff.1 hchars) (Text.isIdentifier_iff.1 hname).1
    | cons c cs =>
      rw [hchars] at heq hname'
      obtain ⟨rfl, htail⟩ : '-' = c ∧ family.toList ++ '-' :: b :: rest = cs ++ '-' :: b :: rest' := by simpa using heq
      obtain ⟨rfl, hrest⟩ := Text.eq_of_pair hne hfamily (hname' fun _ hc => List.mem_cons_of_mem _ hc) htail
      refine ⟨String.toList_injective ?_, hrest⟩
      rw [hchars, String.toList_append]
      rfl

theorem startsWith_signText (h : Text.startsWith "-" family = false) (negative : Bool) :
    Text.startsWith "-" (signText negative ++ family) = negative ∧
      (Text.after? "-" (signText negative ++ family)).getD (signText negative ++ family) = family := by
  cases negative with
  | false =>
    rw [show signText false = "" from rfl, String.empty_append]
    refine ⟨h, ?_⟩
    rw [Text.startsWith_eq_isSome_after?, Option.isSome_eq_false_iff, Option.isNone_iff_eq_none] at h
    rw [h, Option.getD_none]
  | true =>
    have hafter : Text.after? "-" ("-" ++ family) = some family := Text.after?_eq_some_iff.2 rfl
    rw [show signText true = "-" from rfl, Text.startsWith_eq_isSome_after?, hafter]
    exact ⟨rfl, rfl⟩

/-- A family, a dash and a number, in front of which there may be a sign. -/
theorem numeric?_append {s : String} (hs : '-' ∉ s.toList)
    (hsign : Text.startsWith "-" (family ++ "-" ++ s) = false) (negative : Bool) :
    numeric? (signText negative ++ family ++ "-" ++ s) = (Operand.step s).read? family negative := by
  have hbase : signText negative ++ family ++ "-" ++ s = signText negative ++ (family ++ "-" ++ s) := by
    simp only [String.append_assoc]
  have hne : ¬ family.isEmpty = true := fun hempty => by
    rw [String.isEmpty_iff] at hempty
    rw [hempty, String.empty_append, Text.startsWith_iff.2 ⟨s, rfl⟩] at hsign
    cases hsign
  have hcut : Text.cutLast? '-' (family ++ "-" ++ s) = some (family, s) := Text.cutLast?_append hs
  obtain ⟨hstart, hrest⟩ := startsWith_signText hsign negative
  rw [hbase, numeric?, hrest, hstart, hcut, Option.bind_eq_bind, Option.bind_some]
  exact if_neg hne

/-- A family with a sign or without one, and a value in brackets. -/
theorem bracketed?_sign_append {raw : String} (hfamily : ¬ ['-', '['] <:+: family.toList)
    (hhint : (splitHint raw).1 = none)
    (hbegins : BeginsSigned (signText negative ++ family ++ "-" ++ ("[" ++ raw ++ "]"))) :
    bracketed? (signText negative ++ family ++ "-" ++ ("[" ++ raw ++ "]")) =
      (Operand.brackets raw).read? family negative := by
  have hraw := splitHint_of_fst hhint
  have hbase : signText negative ++ family ++ "-" ++ ("[" ++ raw ++ "]") =
      signText negative ++ family ++ "-[" ++ raw ++ "]" := by
    rw [show "-[" = "-" ++ "[" from rfl]
    simp only [String.append_assoc]
  rw [hbase] at hbegins ⊢
  refine Option.ext fun declarations => ⟨fun hread => ?_, fun hread => ?_⟩
  · rcases bracketed?_eq_some hread with ⟨name, raw', value, heq, hname, -⟩ | ⟨family', rest, value, heq, -, hassign⟩
    · refine absurd ?_ (ne_bracket_of_beginsSigned hbegins (name ++ ":" ++ raw' ++ "]"))
      rw [heq]
      simp only [String.append_assoc]
    · have hname := (isFamily_of_assign? hassign).isIdentifier
      have hchars := congrArg String.toList heq
      have hsides : (signText negative ++ family).toList ++ '-' :: '[' :: (raw ++ "]").toList =
          family'.toList ++ '-' :: '[' :: rest.toList := by
        simpa using hchars
      obtain ⟨rfl, -⟩ := eq_of_sign_append (by decide) hfamily hname hsides
      rw [bracketed?_append hname, hraw] at hread
      exact hread
  · obtain ⟨value, -, hassign⟩ := Option.bind_eq_some_iff.1 hread
    rw [bracketed?_append (isFamily_of_assign? hassign).isIdentifier, hraw]
    exact hread

/-- A family with a sign or without one, and a reference in parentheses. -/
theorem parenthesized?_sign_append {name : String} (hfamily : ¬ ['-', '('] <:+: family.toList) (negative : Bool) :
    parenthesized? (signText negative ++ family ++ "-" ++ ("(--" ++ name ++ ")")) =
      (Operand.reference name).read? family negative := by
  have hbase : signText negative ++ family ++ "-" ++ ("(--" ++ name ++ ")") =
      signText negative ++ family ++ "-(" ++ ("--" ++ name ++ ")") := by
    rw [show "-(" = "-" ++ "(" from rfl, show "(--" = "(" ++ "--" from rfl]
    simp only [String.append_assoc]
  have hreference : "(--" ++ name ++ ")" = "(" ++ ("--" ++ name ++ ")") := by
    rw [show "(--" = "(" ++ "--" from rfl]
    simp only [String.append_assoc]
  rw [Operand.read?, hbase, hreference]
  refine Option.ext fun declarations => ⟨fun hread => ?_, fun hread => ?_⟩
  · obtain ⟨family', name', heq, hname, hassign⟩ := parenthesized?_eq_some hread
    have hidentifier := (isFamily_of_assign? hassign).isIdentifier
    have hchars := congrArg String.toList heq
    have hsides : (signText negative ++ family).toList ++ '-' :: '(' :: ("--" ++ name ++ ")").toList =
        family'.toList ++ '-' :: '(' :: ("--" ++ name' ++ ")").toList := by
      simpa using hchars
    obtain ⟨rfl, -⟩ := eq_of_sign_append (by decide) hfamily hidentifier hsides
    rwa [parenthesized?_append hidentifier] at hread
  · obtain ⟨value, -, hassign⟩ := Option.bind_eq_some_iff.1 hread
    rwa [parenthesized?_append (isFamily_of_assign? hassign).isIdentifier]

/-- **What the form of an operand makes of it.** -/
theorem read?_operand (h : operand.Follows family)
    (hsign : Text.startsWith "-" (family ++ "-" ++ operand.text) = false)
    (hbegins : BeginsSigned (signText negative ++ family ++ "-" ++ operand.text)) :
    operand.form.read? (signText negative ++ family ++ "-" ++ operand.text) = operand.read? family negative := by
  cases operand with
  | step s => exact numeric?_append h.1 hsign negative
  | brackets raw => exact bracketed?_sign_append h.1 h.2 hbegins
  | reference name => exact parenthesized?_sign_append h negative

/-! ## What a sign does -/

theorem numericFamilies_found : (numericFamilies.all fun entry =>
    numericFamilies.lookup entry.1 == some entry.2 && (translations.lookup entry.1).isNone &&
      (Catalog.Spacing.family? entry.1).isNone) = true := by
  decide

theorem translations_found : (translations.all fun entry => translations.lookup entry.1 == some entry.2 &&
    (Catalog.Spacing.family? entry.1).isNone) = true := by
  decide

theorem negatable_found : (negatable.all fun family => (Catalog.Spacing.family? family).isNone) = true := by
  decide

theorem mem_signedSpacing_iff : family ∈ signedSpacing ↔
    ∃ spacing, Catalog.Spacing.family? family = some spacing ∧ spacing.signed = true := by
  constructor
  · intro h
    obtain ⟨spacing, hmem, rfl⟩ := List.mem_map.1 h
    obtain ⟨hfamilies, hsigned⟩ := List.mem_filter.1 hmem
    have hfound := List.all_eq_true.1 families_found _ hfamilies
    rw [Bool.and_eq_true, beq_iff_eq] at hfound
    exact ⟨spacing, hfound.2, hsigned⟩
  · rintro ⟨spacing, hfamily, hsigned⟩
    obtain ⟨hmem, hname⟩ := Catalog.Spacing.mem_families_of_family? hfamily
    exact List.mem_map.2 ⟨spacing, List.mem_filter.2 ⟨hmem, hsigned⟩, hname⟩

theorem mem_signedNumeric_iff : family ∈ signedNumeric ↔
    ∃ known, numericFamilies.lookup family = some known ∧ known.signed = true := by
  constructor
  · intro h
    obtain ⟨entry, hmem, rfl⟩ := List.mem_map.1 h
    obtain ⟨hnumeric, hsigned⟩ := List.mem_filter.1 hmem
    have hfound := List.all_eq_true.1 numericFamilies_found _ hnumeric
    simp only [Bool.and_eq_true, beq_iff_eq] at hfound
    exact ⟨entry.2, hfound.1.1, hsigned⟩
  · rintro ⟨known, hlookup, hsigned⟩
    exact List.mem_map.2 ⟨(family, known), List.mem_filter.2 ⟨mem_of_lookup hlookup, hsigned⟩, rfl⟩

theorem mem_translations_iff : family ∈ translations.map Prod.fst ↔ ∃ axis, translations.lookup family = some axis := by
  refine ⟨fun h => ?_, fun ⟨axis, haxis⟩ => mem_map_fst_of_lookup haxis⟩
  obtain ⟨entry, hentry, rfl⟩ := List.mem_map.1 h
  have hfound := List.all_eq_true.1 translations_found _ hentry
  rw [Bool.and_eq_true, beq_iff_eq] at hfound
  exact ⟨entry.2, hfound.1⟩

/-- The families whose numbers allow a sign, by the tables they are found in. -/
theorem mem_signed_step_iff {s : String} : family ∈ (Operand.step s).signed ↔
    (∃ known, numericFamilies.lookup family = some known ∧ known.signed = true) ∨
      (∃ spacing, Catalog.Spacing.family? family = some spacing ∧ spacing.signed = true) ∨
        ∃ axis, translations.lookup family = some axis := by
  rw [← mem_signedNumeric_iff, ← mem_signedSpacing_iff, ← mem_translations_iff, Operand.signed, List.mem_append,
    List.mem_append, or_assoc]

/-- A family whose numbers have a unit stands in no other table. -/
theorem signed_of_lookup {s : String} {known : NumericFamily} (hsigned : family ∈ (Operand.step s).signed)
    (hlookup : numericFamilies.lookup family = some known) : known.signed = true := by
  have hfound := List.all_eq_true.1 numericFamilies_found _ (mem_of_lookup hlookup)
  simp only [Bool.and_eq_true, Option.isNone_iff_eq_none] at hfound
  rcases mem_signed_step_iff.1 hsigned with ⟨known', hknown, hsign⟩ | ⟨spacing, hspacing, -⟩ | ⟨axis, haxis⟩
  · obtain rfl := Option.some.inj (hlookup.symm.trans hknown)
    exact hsign
  · rw [hfound.2] at hspacing
    cases hspacing
  · rw [hfound.1.2] at haxis
    cases haxis

/-- A spacing family is no translation, so it allows a sign by itself. -/
theorem signed_of_family? {s : String} {spacing : Catalog.Spacing.Family}
    (hsigned : family ∈ (Operand.step s).signed) (hlookup : numericFamilies.lookup family = none)
    (hspacing : Catalog.Spacing.family? family = some spacing) : spacing.signed = true := by
  rcases mem_signed_step_iff.1 hsigned with ⟨known, hknown, -⟩ | ⟨spacing', hspacing', hsign⟩ | ⟨axis, haxis⟩
  · rw [hlookup] at hknown
    cases hknown
  · obtain rfl := Option.some.inj (hspacing.symm.trans hspacing')
    exact hsign
  · have hfound := List.all_eq_true.1 translations_found _ (mem_of_lookup haxis)
    rw [Bool.and_eq_true, Option.isNone_iff_eq_none] at hfound
    rw [hfound.2] at hspacing
    cases hspacing

theorem spacingValue_minus (s : String) :
    Catalog.spacingValue (signText true ++ s) = "calc(var(--spacing) * -" ++ s ++ ")" := by
  have hminus : "calc(var(--spacing) * " ++ signText true = "calc(var(--spacing) * -" := by decide
  unfold Catalog.spacingValue
  rw [← String.append_assoc, hminus]

/-- A sign may stand in front of every step that a family takes. -/
theorem negates_of_spacingStep? {s value : String} (h : spacingStep? family s negative = some value) :
    ∃ positive negated, Operand.Negates (.step s) positive negated ∧
      spacingStep? family s false = some positive ∧ spacingStep? family s true = some negated := by
  unfold spacingStep? at h ⊢
  split at h
  · rename_i left right hcut
    obtain ⟨numerator, hleft, h⟩ := Option.bind_eq_some_iff.1 h
    obtain ⟨denominator, hright, h⟩ := Option.bind_eq_some_iff.1 h
    split at h
    · cases h
    · rename_i hchecks
      have hfraction (sign : Bool) : fraction? family left right sign =
          some ("calc(" ++ toString numerator ++ "/" ++ toString denominator ++ " * " ++ signText sign ++ "100%)") := by
        rw [fraction?, hleft, hright, Option.bind_eq_bind, Option.bind_some]
        exact if_neg hchecks
      obtain rfl := Text.eq_append_of_cut? hcut
      refine ⟨_, _, .fraction hleft hright, ?_, ?_⟩
      · rw [show " * 100%)" = " * " ++ (signText false ++ "100%)") from rfl]
        simp only [hfraction, String.append_assoc]
      · rw [show " * -100%)" = " * " ++ (signText true ++ "100%)") from rfl]
        simp only [hfraction, String.append_assoc]
  · unfold multiple? at h
    split at h
    · rename_i hstep
      refine ⟨_, _, .multiple s, ?_, ?_⟩
      · rw [multiple?, if_pos hstep, show signText false = "" from rfl, String.empty_append]
        rfl
      · rw [multiple?, if_pos hstep]
        exact congrArg some (spacingValue_minus s)
    · cases h

/-- A family with a unit that allows a sign. -/
theorem exists_template_of_measured? {s : String} {known : NumericFamily} (hsigned : known.signed = true)
    (h : measured? known s negative = some declarations) :
    ∃ positive negated, Operand.Negates (.step s) positive negated ∧
      measured? known s false = some (known.template.fill positive) ∧
        measured? known s true = some (known.template.fill negated) := by
  obtain ⟨-, text, htext, -⟩ := measured?_eq_some h
  obtain ⟨-, rfl⟩ := text?_eq_some htext
  refine ⟨_, _, .unit s known.measure, ?_, ?_⟩
  · simp [measured?, htext, signText]
  · simp [measured?, htext, signText, hsigned]

/-- A translation or a signed spacing family. -/
theorem exists_template_of_spaced? {s : String}
    (hsigned : ∀ spacing, Catalog.Spacing.family? family = some spacing → spacing.signed = true)
    (hunknown : numericFamilies.lookup family = none) (h : spaced? family s negative = some declarations) :
    ∃ template positive negated, stepTemplate? family = some template ∧
      Operand.Negates (.step s) positive negated ∧ spaced? family s false = some (template.fill positive) ∧
        spaced? family s true = some (template.fill negated) := by
  obtain ⟨value, hvalue, hfamily⟩ := spaced?_eq_some h
  obtain ⟨positive, negated, hnegates, hpositive, hnegated⟩ := negates_of_spacingStep? hvalue
  cases haxis : translations.lookup family with
  | some axis =>
    refine ⟨translateTemplate axis, positive, negated, ?_, hnegates, ?_, ?_⟩
    · simp [stepTemplate?, hunknown, haxis]
    · simp [spaced?, hpositive, haxis]
    · simp [spaced?, hnegated, haxis]
  | none =>
    obtain ⟨spacing, hspacing⟩ : ∃ spacing, Catalog.Spacing.family? family = some spacing := by
      rcases hfamily with ⟨axis, hsome, -⟩ | ⟨spacing, hspacing, -⟩
      · rw [haxis] at hsome
        cases hsome
      · exact ⟨spacing, hspacing⟩
    refine ⟨Template.each spacing.properties, positive, negated, ?_, hnegates, ?_, ?_⟩
    · simp [stepTemplate?, hunknown, haxis, hspacing]
    · simp [spaced?, hpositive, haxis, hspacing, each_eq_fill]
    · simp [spaced?, hnegated, haxis, hspacing, each_eq_fill, hsigned spacing hspacing]

theorem unsigned?_of_startsWith (h : Text.startsWith "-" family = false) : unsigned? ("-" ++ family) = some family := by
  rw [unsigned?, Text.after?_eq_some_iff.2 rfl, Option.filter_some, h]
  rfl

theorem mem_signed_of_assign? {value : String} (hsign : Text.startsWith "-" family = false)
    (h : assign? (signText true ++ family) none value = some declarations) : family ∈ signedSpacing ++ negatable := by
  rw [show signText true = "-" from rfl, assign?, unsigned?_of_startsWith hsign] at h
  have h : negated? family value = some declarations := h
  unfold negated? at h
  split at h
  · rename_i spacing hspacing
    exact List.mem_append_left _ (mem_signedSpacing_iff.2 ⟨spacing, Option.filter_eq_some_iff.1 hspacing⟩)
  · split at h
    · rename_i hnegatable
      exact List.mem_append_right _ (List.contains_iff_mem.1 hnegatable)
    · cases h

/-- A family that does not look at the value and allows a sign. -/
theorem exists_template_of_signed (h : family ∈ signedSpacing ++ negatable) :
    ∃ template, valueTemplate? family = some template ∧ ∀ value,
      assign? family none value = some (template.fill value) ∧
        assign? ("-" ++ family) none value = some (template.fill (negation value)) := by
  have hsigned : family ∈ signedFamilies := by
    simp only [signedFamilies, List.mem_append] at h ⊢
    tauto
  have hsign : Text.startsWith "-" family = false := by
    simpa using startsWith_dash_of_mem_knownFamilies (mem_knownFamilies_of_signed hsigned) ""
  rcases List.mem_append.1 h with h | h
  · obtain ⟨spacing, hspacing, hspacingSigned⟩ := mem_signedSpacing_iff.1 h
    obtain ⟨hmem, rfl⟩ := Catalog.Spacing.mem_families_of_family? hspacing
    have hfound := List.all_eq_true.1 families_found spacing hmem
    rw [Bool.and_eq_true, Bool.and_eq_true, Option.isNone_iff_eq_none] at hfound
    refine ⟨Template.each spacing.properties, ?_, fun value => ⟨?_, ?_⟩⟩
    · rw [valueTemplate?, hfound.1.2, hspacing]
      rfl
    · rw [assign?_of_mem_families hmem, each_eq_fill]
    · rw [assign?, unsigned?_of_startsWith hsign]
      show negated? spacing.name value = _
      rw [negated?, hspacing, Option.filter_some, if_pos hspacingSigned]
      exact congrArg some (each_eq_fill ..)
  · obtain ⟨template, htemplate⟩ := Option.isSome_iff_exists.1 (isSome_lookup_of_mem_negatable family h)
    have hspacing := List.all_eq_true.1 negatable_found _ h
    rw [Option.isNone_iff_eq_none] at hspacing
    refine ⟨template, ?_, fun value => ⟨?_, ?_⟩⟩
    · rw [valueTemplate?, htemplate]
    · exact assign?_of_mem_templates (mem_of_lookup htemplate) value
    · rw [assign?, unsigned?_of_startsWith hsign]
      show negated? family value = _
      rw [negated?, hspacing, Option.filter_none]
      show (if negatable.contains family then _ else none) = _
      rw [if_pos (List.contains_iff_mem.2 h), htemplate, Option.map_some]

/-- **A sign in front negates the value.** The family sets what it sets without the sign, with the negated value in its
place. -/
theorem Operand.exists_template_of_read? (hsigned : family ∈ operand.signed)
    (h : operand.read? family negative = some declarations) :
    ∃ template positive negated, operand.template? family = some template ∧ operand.Negates positive negated ∧
      operand.read? family false = some (template.fill positive) ∧
        operand.read? family true = some (template.fill negated) := by
  cases operand with
  | step s =>
    unfold read? at h ⊢
    cases hlookup : numericFamilies.lookup family with
    | some known =>
      rw [hlookup] at h
      have hknown := signed_of_lookup hsigned hlookup
      obtain ⟨positive, negated, hnegates, hpositive, hnegated⟩ := exists_template_of_measured? hknown h
      refine ⟨known.template, positive, negated, ?_, hnegates, hpositive, hnegated⟩
      rw [template?, stepTemplate?, hlookup]
    | none =>
      rw [hlookup] at h
      exact exists_template_of_spaced? (fun _ hspacing => signed_of_family? hsigned hlookup hspacing) hlookup h
  | brackets raw =>
    obtain ⟨value, hvalue, -⟩ := Option.bind_eq_some_iff.1 h
    obtain ⟨template, htemplate, hassign⟩ := exists_template_of_signed hsigned
    refine ⟨template, _, _, htemplate, .brackets hvalue, ?_, ?_⟩
    · rw [read?, hvalue, Option.bind_some, show signText false = "" from rfl, String.empty_append, (hassign value).1]
    · rw [read?, hvalue, Option.bind_some]
      exact (hassign value).2
  | reference name =>
    obtain ⟨value, hvalue, -⟩ := Option.bind_eq_some_iff.1 h
    obtain ⟨template, htemplate, hassign⟩ := exists_template_of_signed hsigned
    obtain ⟨name', -, heq, rfl⟩ := reference?_eq_some_iff.1 hvalue
    obtain rfl : name = name' := by
      simpa only [String.append_left_inj, String.append_right_inj] using heq
    refine ⟨template, _, _, htemplate, .reference name, ?_, ?_⟩
    · rw [read?, hvalue, Option.bind_some, show signText false = "" from rfl, String.empty_append, (hassign _).1]
    · rw [read?, hvalue, Option.bind_some]
      exact (hassign _).2

/-- **Only a family that allows a sign has one.** -/
theorem Operand.mem_signed_of_read? (hsign : Text.startsWith "-" family = false)
    (h : operand.read? family true = some declarations) : family ∈ operand.signed := by
  cases operand with
  | step s =>
    unfold read? at h
    cases hlookup : numericFamilies.lookup family with
    | some known =>
      rw [hlookup] at h
      exact mem_signed_step_iff.2 (.inl ⟨known, hlookup, (measured?_eq_some h).1 rfl⟩)
    | none =>
      rw [hlookup] at h
      obtain ⟨value, -, ⟨axis, haxis, -⟩ | ⟨spacing, hspacing, hsigned, -⟩⟩ := spaced?_eq_some h
      · exact mem_signed_step_iff.2 (.inr (.inr ⟨axis, haxis⟩))
      · exact mem_signed_step_iff.2 (.inr (.inl ⟨spacing, hspacing, hsigned rfl⟩))
  | brackets raw =>
    obtain ⟨value, -, hassign⟩ := Option.bind_eq_some_iff.1 h
    exact mem_signed_of_assign? hsign hassign
  | reference name =>
    obtain ⟨value, -, hassign⟩ := Option.bind_eq_some_iff.1 h
    exact mem_signed_of_assign? hsign hassign

/-! ## Signs -/

/-- What a utility sets that has a sign, or whose family allows one. -/
theorem resolve?_operand (h : operand.Follows family)
    (hsign : Text.startsWith "-" (family ++ "-" ++ operand.text) = false)
    (hsigned : negative = true ∨ family ∈ operand.signed) :
    resolve? (signText negative ++ family ++ "-" ++ operand.text) = operand.read? family negative := by
  have hbegins : BeginsSigned (signText negative ++ family ++ "-" ++ operand.text) := by
    cases negative with
    | true => exact .inl ⟨family ++ "-" ++ operand.text, by simp only [signText, if_true, String.append_assoc]⟩
    | false =>
      have hmem := Operand.mem_signedFamilies (hsigned.resolve_left (by simp))
      exact .inr ⟨family, operand.text, hmem, by rw [show signText false = "" from rfl, String.empty_append]⟩
  rw [resolve?_eq_read? h hbegins, read?_operand h hsign hbegins]

/-- **A minus sign negates the value.** Whatever a family is followed by, a number, a value in brackets or a reference,
the utility with a sign in front is one exactly if the utility is, and the family allows the sign. It sets the same
properties in the same order, by the same template, with the negated value in place of the value. -/
theorem sign_negates_value (h : operand.Follows family)
    (hsign : Text.startsWith "-" (family ++ "-" ++ operand.text) = false) :
    ((resolve? ("-" ++ (family ++ "-" ++ operand.text))).isSome ↔
      (resolve? (family ++ "-" ++ operand.text)).isSome ∧ family ∈ operand.signed) ∧
    ∀ declarations, resolve? ("-" ++ (family ++ "-" ++ operand.text)) = some declarations →
      ∃ template positive negated, operand.template? family = some template ∧ operand.Negates positive negated ∧
        resolve? (family ++ "-" ++ operand.text) = some (template.fill positive) ∧
          declarations = template.fill negated := by
  have hnegative : resolve? ("-" ++ (family ++ "-" ++ operand.text)) = operand.read? family true := by
    have hbase : "-" ++ (family ++ "-" ++ operand.text) = signText true ++ family ++ "-" ++ operand.text := by
      rw [show signText true = "-" from rfl]
      simp only [String.append_assoc]
    rw [hbase, resolve?_operand h hsign (.inl rfl)]
  have hpositive (hsigned : family ∈ operand.signed) :
      resolve? (family ++ "-" ++ operand.text) = operand.read? family false := by
    have hresolve : resolve? (signText false ++ family ++ "-" ++ operand.text) = operand.read? family false :=
      resolve?_operand h hsign (.inr hsigned)
    rwa [show signText false = "" from rfl, String.empty_append] at hresolve
  have hfamily : Text.startsWith "-" family = false := by
    rw [← Bool.not_eq_true] at hsign ⊢
    rw [Text.startsWith_iff] at hsign ⊢
    rintro ⟨rest, rfl⟩
    exact hsign ⟨rest ++ "-" ++ operand.text, by simp only [String.append_assoc]⟩
  have hsets {declarations : List Declaration} (hread : operand.read? family true = some declarations) :=
    Operand.exists_template_of_read? (Operand.mem_signed_of_read? hfamily hread) hread
  rw [hnegative]
  refine ⟨⟨fun hsome => ?_, fun ⟨hsome, hsigned⟩ => ?_⟩, fun declarations hread => ?_⟩
  · obtain ⟨declarations, hread⟩ := Option.isSome_iff_exists.1 hsome
    have hsigned := Operand.mem_signed_of_read? hfamily hread
    obtain ⟨template, positive, negated, -, -, hfalse, -⟩ := hsets hread
    rw [hpositive hsigned, hfalse]
    exact ⟨rfl, hsigned⟩
  · rw [hpositive hsigned] at hsome
    obtain ⟨declarations, hread⟩ := Option.isSome_iff_exists.1 hsome
    obtain ⟨template, positive, negated, -, -, -, htrue⟩ := Operand.exists_template_of_read? hsigned hread
    rw [htrue]
    rfl
  · obtain ⟨template, positive, negated, htemplate, hnegates, hfalse, htrue⟩ := hsets hread
    refine ⟨template, positive, negated, htemplate, hnegates, ?_, ?_⟩
    · rw [hpositive (Operand.mem_signed_of_read? hfamily hread), hfalse]
    · exact Option.some.inj (hread.symm.trans htrue)

/-- A translation by three pixels and a margin of four units, each with its negation. The properties are the same, and
so is the value that does not depend on the number of pixels. -/
theorem negative_translation_is_negated :
    ((Operand.brackets "3px").Follows "translate-x" ∧
      resolve? "translate-x-[3px]" = some
        [.property "--tw-translate-x" "3px",
         .property "translate" "var(--tw-translate-x, 0) var(--tw-translate-y, 0)"] ∧
      resolve? "-translate-x-[3px]" = some
        [.property "--tw-translate-x" "calc(3px * -1)",
         .property "translate" "var(--tw-translate-x, 0) var(--tw-translate-y, 0)"]) ∧
    (Operand.step "4").Follows "m" ∧
      resolve? "m-4" = some [.property "margin" "calc(var(--spacing) * 4)"] ∧
      resolve? "-m-4" = some [.property "margin" "calc(var(--spacing) * -4)"] := by
  constructor
  · have hfollows : (Operand.brackets "3px").Follows "translate-x" := ⟨by decide +kernel, by decide +kernel⟩
    have hbase : "translate-x" ++ "-" ++ (Operand.brackets "3px").text = "translate-x-[3px]" := by decide +kernel
    have hminus : "-" ++ "translate-x-[3px]" = "-translate-x-[3px]" := by decide +kernel
    have hvalue : arbitrary? "3px" = some "3px" := by decide +kernel
    have hfamily : Operand.template? "translate-x" (.brackets "3px") = some (translateTemplate "--tw-translate-x") := by
      decide +kernel
    have hutility : (resolve? "translate-x-[3px]").isSome := by decide +kernel
    have hsigned : "translate-x" ∈ (Operand.brackets "3px").signed := by decide +kernel
    obtain ⟨hsome, hsets⟩ := sign_negates_value hfollows (by decide +kernel)
    rw [hbase, hminus] at hsome hsets
    obtain ⟨declarations, hnegative⟩ := Option.isSome_iff_exists.1 (hsome.2 ⟨hutility, hsigned⟩)
    obtain ⟨template, positive, negated, htemplate, hnegates, hpositive, rfl⟩ := hsets declarations hnegative
    obtain rfl := Option.some.inj (hfamily.symm.trans htemplate)
    cases hnegates with
    | brackets hauthored =>
      obtain rfl := Option.some.inj (hvalue.symm.trans hauthored)
      exact ⟨hfollows, hpositive, hnegative⟩
  · have hfollows : (Operand.step "4").Follows "m" := ⟨by decide, '4', rfl, by decide⟩
    have hbase : "m" ++ "-" ++ (Operand.step "4").text = "m-4" := by decide +kernel
    have hminus : "-" ++ "m-4" = "-m-4" := by decide +kernel
    have hplain : resolve? "m-4" = some [.property "margin" "calc(var(--spacing) * 4)"] := by decide +kernel
    have hfamily : Operand.template? "m" (.step "4") = some (Template.each ["margin"]) := by decide +kernel
    have hsigned : "m" ∈ (Operand.step "4").signed := by decide +kernel
    obtain ⟨hsome, hsets⟩ := sign_negates_value hfollows (by decide +kernel)
    rw [hbase, hminus] at hsome hsets
    obtain ⟨declarations, hnegative⟩ := Option.isSome_iff_exists.1
      (hsome.2 ⟨Option.isSome_iff_exists.2 ⟨_, hplain⟩, hsigned⟩)
    obtain ⟨template, positive, negated, htemplate, hnegates, hpositive, rfl⟩ := hsets declarations hnegative
    obtain rfl := Option.some.inj (hfamily.symm.trans htemplate)
    have hvalue : positive = "calc(var(--spacing) * 4)" := by
      have hsets : Declaration.each ["margin"] positive = [.property "margin" "calc(var(--spacing) * 4)"] := by
        rw [each_eq_fill]
        exact Option.some.inj (hpositive.symm.trans hplain)
      exact (Declaration.property.inj (List.cons.inj hsets).1).2
    have hnegated : negated = "calc(var(--spacing) * -4)" := by
      generalize hstep : Operand.step "4" = operand at hnegates
      cases hnegates with
      | multiple s =>
        cases hstep
        rfl
      -- the value is no number with a unit, and there is no slash in the number
      | unit s measure =>
        cases hstep
        cases measure <;> exact absurd hvalue (by decide)
      | @fraction left right =>
        have hslash : '/' ∈ (left ++ "/" ++ right).toList := by simp
        rw [← Operand.step.inj hstep] at hslash
        exact absurd hslash (by decide)
      | brackets hauthored => cases hstep
      | reference name => cases hstep
    rw [hnegated] at hnegative
    exact ⟨hfollows, hplain, hnegative⟩

end AtomicCss.Dynamic
