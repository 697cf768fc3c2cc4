import AtomicCss.Proofs.Dynamic.Names
import Mathlib.Data.List.Pairwise

/-!
# No utility has two forms

The forms of dynamic utilities are tried in a fixed order, and the tests of their shapes overlap: the text
`bg-[#fff]/[0.5]` has a slash behind a color family and ends in a square bracket as well. The readings do
not overlap, though, so the order in which the forms are tried does not matter.

What keeps the readings apart is the character behind the longest name in front of the utility. A family and
its dash are part of that name, so the character and what follows it (`Text.behindName`) do not depend on
the reading:

* a square bracket opens a value, and a slash behind the value does not fit into it, because a value is
  balanced;
* a parenthesis opens a reference, whose name ends in a parenthesis, or a hint, which ends in a colon;
* a slash follows a color of the palette, or the count of a fraction. Here the families decide: no family of
  fractions begins as one of colors does.

## The architecture

* **`IsModified.not_isClosed`** — a balanced value does not reach over a modifier.
* **`behindName_of_propertyWithOpacity?`** and its kin — what stands behind the name, one lemma for a form.
* **`numeric?_of_colorWithOpacity?`** — a fraction is no color with an opacity.
* **`pairwise_apart`** — the forms are apart, one by one.
* **`Form.eq_of_read?`**, **`resolve?_eq_some_iff`** — at most one form reads a utility, and what it reads is what
  the utility sets.
* **`order_of_forms_is_free`** — so every order of the forms gives the same declarations.
-/

namespace AtomicCss

open Text (isIdentifier isNameChar closes)

/-! ## What stands behind a name -/

namespace Text

/-- What follows the longest name that a text begins with. -/
def behindName (s : String) : List Char :=
  s.toList.dropWhile isNameChar

/-- The first character that may not stand in a name ends it. -/
theorem behindName_of_eq {s : String} {name cs : List Char} {c : Char} (h : s.toList = name ++ c :: cs)
    (hname : ∀ x ∈ name, isNameChar x = true) (hc : isNameChar c = false) : behindName s = c :: cs := by
  rw [behindName, h, List.dropWhile_append_of_pos hname, List.dropWhile_cons_of_neg (by simp [hc])]

/-- Two names are told apart by what ends them. -/
theorem ne_of_closers {name name' cs cs' : List Char} {c c' : Char} (h : ∀ x ∈ name, isNameChar x = true)
    (h' : ∀ x ∈ name', isNameChar x = true) (hc : isNameChar c = false) (hc' : isNameChar c' = false)
    (hne : c :: cs ≠ c' :: cs') : name ++ c :: cs ≠ name' ++ c' :: cs' := by
  intro heq
  obtain ⟨-, rfl, rfl⟩ := append_cons_inj_of_test h h' hc hc' heq
  exact hne rfl

/-- Dashes in front of a name belong to the name. -/
theorem all_isNameChar_dashes {name : List Char} (h : ∀ c ∈ name, isNameChar c = true) :
    ∀ c ∈ '-' :: '-' :: name, isNameChar c = true := by
  simp only [List.mem_cons, forall_eq_or_imp]
  exact ⟨by decide, by decide, h⟩

/-- A text that begins with a name does not begin with any other character. -/
theorem ne_of_isIdentifier {s : String} (h : isIdentifier s = true) {c : Char} (hc : isNameChar c = false)
    (t cs : List Char) : s.toList ++ t ≠ c :: cs := by
  intro heq
  obtain ⟨hne, hchars⟩ := isIdentifier_iff.1 h
  cases hs : s.toList with
  | nil => exact hne (String.toList_eq_nil_iff.1 hs)
  | cons d ds =>
    rw [hs, List.cons_append] at heq
    obtain ⟨rfl, -⟩ := List.cons.inj heq
    rw [hchars d (hs ▸ List.mem_cons_self)] at hc
    cases hc

end Text

namespace Dynamic

section Behind

variable {base : String} {declarations : List Declaration}

/-- An opening bracket, a balanced text and a modifier behind it. -/
def IsModified (cs : List Char) : Prop :=
  ∃ inner modifier, cs = '[' :: (inner ++ ']' :: '/' :: modifier) ∧ closes '[' ']' 0 inner = true ∧
    modifier ≠ []

/-- An opening bracket and a text that is balanced up to a bracket at its end. -/
def IsClosed (cs : List Char) : Prop :=
  ∃ inner : String, cs = '[' :: inner.toList ∧
    closes '[' ']' 0 ((Text.before? "]" inner).getD inner).toList = true

/-- **A value does not reach over the modifier of another.** Without its last bracket the text is not
balanced either, since the bracket in front of the modifier is one too many. -/
theorem IsModified.not_isClosed {cs : List Char} (h : IsModified cs) : ¬ IsClosed cs := by
  rintro ⟨inner, hcs, hclosed⟩
  obtain ⟨value, modifier, hcs', hvalue, hne⟩ := h
  obtain ⟨init, last, rfl⟩ := (List.eq_nil_or_concat modifier).resolve_left hne
  have hinner : inner.toList = value ++ ']' :: '/' :: init.concat last :=
    (List.cons.inj (hcs.symm.trans hcs')).2
  cases hbefore : Text.before? "]" inner with
  | none =>
    rw [hbefore, Option.getD_none, hinner, Text.closes_append_closer (by decide) hvalue] at hclosed
    cases hclosed
  | some front =>
    have hfront : front.toList = value ++ ']' :: '/' :: init := by
      have h : front.toList ++ [']'] = (value ++ ']' :: '/' :: init) ++ [last] := by
        have hsides := congrArg String.toList (Text.eq_append_of_before? hbefore)
        rw [hinner, String.toList_append] at hsides
        simpa using hsides.symm
      exact List.append_inj_left' h rfl
    rw [hbefore, Option.getD_some, hfront, Text.closes_append_closer (by decide) hvalue] at hclosed
    cases hclosed

theorem behindName_of_propertyWithOpacity? (h : propertyWithOpacity? base = some declarations) :
    IsModified (Text.behindName base) ∧ ∃ cs, base.toList = '[' :: cs := by
  obtain ⟨name, raw, modifier, hbase, hname, hraw, hne⟩ := shape_of_propertyWithOpacity? h
  have hchars : base.toList = [] ++ '[' :: (("--" ++ name).toList ++ ':' :: raw.toList ++
      ']' :: '/' :: modifier.toList) := by
    rw [hbase]
    simp
  refine ⟨⟨_, modifier.toList, Text.behindName_of_eq hchars (by simp) (by decide), ?_, ?_⟩, _, hchars⟩
  · rw [closes_behind_name (Text.isIdentifier_dashes hname)]
    exact (Bool.and_eq_true_iff.1 hraw).1
  · rwa [ne_eq, String.toList_eq_nil_iff]

/-- Behind the family and the color stands the slash, unless the color itself is no name. -/
theorem behindName_of_colorWithOpacity? (h : colorWithOpacity? base = some declarations) :
    IsModified (Text.behindName base) ∨
      (∃ name modifier, Text.behindName base = '(' :: '-' :: '-' :: (name ++ ')' :: '/' :: modifier) ∧
        ∀ c ∈ name, isNameChar c = true) ∨
      ∃ modifier, Text.behindName base = '/' :: modifier := by
  obtain ⟨family, color, modifier, hbase, hfamily, hcolor, hne⟩ := shape_of_colorWithOpacity? h
  have hfamily := Text.all_isNameChar_dash
    (isIdentifier_of_mem_knownFamilies (mem_knownFamilies_of_mem_table hfamily))
  have hchars : base.toList = (family.toList ++ ['-']) ++ (color.toList ++ '/' :: modifier.toList) := by
    rw [hbase]
    simp
  obtain ⟨value, hvalue⟩ := Option.isSome_iff_exists.1 hcolor
  rcases opaqueColor?_cases hvalue with ⟨inner, rfl, hauthored, -⟩ | hreference | hpalette
  · have hbalanced := isBalanced_of_arbitrary? hauthored
    refine .inl ⟨inner.toList, modifier.toList, ?_, (Bool.and_eq_true_iff.1 hbalanced).1, ?_⟩
    · refine Text.behindName_of_eq (hchars.trans ?_) hfamily (by decide)
      simp
    · rwa [ne_eq, String.toList_eq_nil_iff]
  · obtain ⟨name, hname, rfl, -⟩ := reference?_eq_some_iff.1 hreference
    refine .inr (.inl ⟨name.toList, modifier.toList, ?_, Text.all_isNameChar_of_isIdentifier hname⟩)
    refine Text.behindName_of_eq (hchars.trans ?_) hfamily (by decide)
    simp
  · have hslash : base.toList = ((family.toList ++ ['-']) ++ color.toList) ++ '/' :: modifier.toList := by
      simp only [hchars, List.append_assoc]
    refine .inr (.inr ⟨modifier.toList, Text.behindName_of_eq hslash ?_ (by decide)⟩)
    intro c hc
    rcases List.mem_append.1 hc with hc | hc
    · exact hfamily c hc
    · exact Text.all_isNameChar_of_isIdentifier (isIdentifier_of_palette? hpalette) c hc

theorem behindName_of_bracketed? (h : bracketed? base = some declarations) :
    IsClosed (Text.behindName base) := by
  rcases shape_of_bracketed? h with ⟨name, raw, hbase, hname, hraw⟩ | ⟨family, rest, hbase, hfamily, hrest⟩
  · have hchars : base.toList = [] ++ '[' :: (name ++ ":" ++ raw ++ "]").toList := by
      rw [hbase]
      simp
    have hbefore : Text.before? "]" (name ++ ":" ++ raw ++ "]") = some (name ++ ":" ++ raw) := by
      have hstop : Text.dropStop? "]".toList (name ++ ":" ++ raw ++ "]").toList =
          some (name ++ ":" ++ raw).toList :=
        Text.dropStop?_eq_some_iff.2 (String.toList_append ..)
      rw [Text.before?, hstop, Option.map_some, String.ofList_toList]
    refine ⟨_, Text.behindName_of_eq hchars (by simp) (by decide), ?_⟩
    rw [hbefore, Option.getD_some, String.toList_append, String.toList_append, List.append_assoc]
    exact (closes_behind_name hname raw.toList).trans (Bool.and_eq_true_iff.1 hraw).1
  · refine ⟨rest, Text.behindName_of_eq ?_ (Text.all_isNameChar_dash hfamily.isIdentifier) (by decide), hrest⟩
    rw [hbase]
    simp

theorem behindName_of_parenthesized? (h : parenthesized? base = some declarations) :
    ∃ name, Text.behindName base = '(' :: '-' :: '-' :: (name ++ [')']) ∧
      ∀ c ∈ name, isNameChar c = true := by
  obtain ⟨family, name, hbase, hfamily, hname⟩ := shape_of_parenthesized? h
  refine ⟨name.toList, ?_, Text.all_isNameChar_of_isIdentifier hname⟩
  refine Text.behindName_of_eq ?_ (Text.all_isNameChar_dash hfamily.isIdentifier) (by decide)
  rw [hbase]
  simp

theorem behindName_of_typedParenthesized? (h : typedParenthesized? base = some declarations) :
    ∃ hint cs, Text.behindName base = '(' :: (hint ++ ':' :: cs) ∧ ∀ c ∈ hint, isNameChar c = true := by
  obtain ⟨family, hint, name, hbase, hfamily, hhint, hname⟩ := shape_of_typedParenthesized? h
  refine ⟨hint.toList, ['-', '-'] ++ name.toList ++ [')'], ?_, Text.all_isNameChar_of_isIdentifier hhint⟩
  refine Text.behindName_of_eq ?_
    (Text.all_isNameChar_dash (isIdentifier_of_mem_knownFamilies hfamily)) (by decide)
  rw [hbase]
  simp

/-- A known family, a sign in front of it and a dash behind it are a name. -/
theorem all_isNameChar_of_signed {sign family : String} (hsign : sign = "" ∨ sign = "-")
    (hfamily : family ∈ knownFamilies) : ∀ c ∈ (sign ++ family ++ "-").toList, isNameChar c = true := by
  rw [String.toList_append]
  refine Text.all_isNameChar_dash (Text.isIdentifier_append ?_ (isIdentifier_of_mem_knownFamilies hfamily))
  rcases hsign with rfl | rfl <;> decide

/-- The characters of a utility that ends in a number. -/
theorem mem_of_numeric? (h : numeric? base = some declarations) :
    ∀ c ∈ base.toList, isNameChar c = true ∨ c.isDigit = true ∨ c = '.' ∨ c = '+' ∨ c = '/' := by
  obtain ⟨sign, family, step, hbase, hsign, hfamily, hstep⟩ := shape_of_numeric? h
  have hstep : ∀ c ∈ step.toList, c.isDigit = true ∨ c = '.' ∨ c = '+' ∨ c = '/' := by
    intro c hc
    rcases hstep with hplain | ⟨-, hcount⟩
    · exact (Text.isDigit_or_of_isPlainNumeral hplain c hc).imp_right .inl
    · exact (hcount c hc).imp_right .inr
  intro c hc
  rw [hbase, String.toList_append, List.mem_append] at hc
  exact hc.imp (all_isNameChar_of_signed hsign hfamily c) (hstep c)

theorem not_mem_of_numeric? (h : numeric? base = some declarations) :
    '[' ∉ base.toList ∧ '(' ∉ base.toList :=
  ⟨fun hmem => absurd (mem_of_numeric? h _ hmem) (by decide),
    fun hmem => absurd (mem_of_numeric? h _ hmem) (by decide)⟩

/-- Neither of two families begins as the other does, with the dash behind it. -/
def beginApart (family family' : String) : Bool :=
  !(family ++ "-").toList.isPrefixOf (family' ++ "-").toList &&
    !(family' ++ "-").toList.isPrefixOf (family ++ "-").toList

/-- No text has both of two families in front that begin apart. -/
theorem not_prefix_of_beginApart {family family' : String} {cs : List Char} (h : beginApart family family' = true)
    (hstart : (family ++ "-").toList <+: cs) : ¬ (family' ++ "-").toList <+: cs :=
  Text.not_prefix_of_apart h hstart

/-- No family of fractions begins as one of colors does, nor the other way round. -/
theorem fractional_apart : (fractional.all fun family => ColorFamily.table.all fun entry =>
    beginApart entry.1 family) = true := by
  decide

/-- A number with a slash is a fraction. -/
theorem exists_fractional_of_slash (h : numeric? base = some declarations) (hslash : '/' ∈ base.toList) :
    ∃ sign family step, base = sign ++ family ++ "-" ++ step ∧ (sign = "" ∨ sign = "-") ∧
      family ∈ fractional := by
  obtain ⟨sign, family, step, hbase, hsign, hfamily, hstep⟩ := shape_of_numeric? h
  refine ⟨sign, family, step, hbase, hsign, ?_⟩
  rcases hstep with hplain | ⟨hfraction, -⟩
  · -- the slash would stand in a name or in a plain numeral
    rw [hbase, String.toList_append, List.mem_append] at hslash
    rcases hslash with hslash | hslash
    · exact absurd (all_isNameChar_of_signed hsign hfamily _ hslash) (by decide)
    · exact absurd (Text.isDigit_or_of_isPlainNumeral hplain _ hslash) (by decide)
  · exact hfraction

/-- **A number is no color with an opacity.** The slash makes the number a fraction, so both readings have a
family in front, one of which begins as the other does. -/
theorem numeric?_of_colorWithOpacity? (h : colorWithOpacity? base = some declarations) :
    numeric? base = none := by
  rw [Option.eq_none_iff_forall_ne_some]
  intro declarations' h'
  obtain ⟨family, color, modifier, hbase, hfamily, -⟩ := shape_of_colorWithOpacity? h
  have hslash : '/' ∈ base.toList := by
    rw [hbase]
    simp
  obtain ⟨sign, family', step, hbase', hsign, hfraction⟩ := exists_fractional_of_slash h' hslash
  have hchars : base.toList = (family ++ "-").toList ++ (color ++ "/" ++ modifier).toList := by
    rw [hbase]
    simp only [String.toList_append, List.append_assoc]
  have hchars' : base.toList = sign.toList ++ ((family' ++ "-").toList ++ step.toList) := by
    rw [hbase']
    simp only [String.toList_append, List.append_assoc]
  rcases hsign with rfl | rfl
  · obtain ⟨entry, hentry, rfl⟩ := List.mem_map.1 hfamily
    have hapart := List.all_eq_true.1 (List.all_eq_true.1 fractional_apart _ hfraction) _ hentry
    exact not_prefix_of_beginApart hapart ⟨_, hchars.symm⟩ ⟨_, hchars'.symm⟩
  · -- a family of colors begins with a letter, so the number has no sign
    obtain ⟨c, cs, hletter, halpha⟩ :=
      exists_letter_of_mem_knownFamilies (mem_knownFamilies_of_mem_table hfamily)
    rw [hchars, String.toList_append, hletter] at hchars'
    obtain ⟨rfl, -⟩ := List.cons.inj hchars'
    exact absurd halpha (by decide)

end Behind

/-! ## At most one form -/

/-- At most one of two forms reads a utility. -/
def Apart (base : String) (form form' : Form) : Prop :=
  form.read? base = none ∨ form'.read? base = none

instance (base : String) : Std.Symm (Apart base) where
  symm _ _ := Or.symm

section Apart

variable {base : String} {declarations : List Declaration}

theorem apart_iff {form form' : Form} :
    Apart base form form' ↔
      ∀ declarations declarations', form.read? base = some declarations →
        form'.read? base ≠ some declarations' := by
  unfold Apart
  cases form.read? base <;> cases form'.read? base <;> simp

/-- What stands behind a name stands in the text. -/
theorem mem_of_behindName {c : Char} {cs : List Char} (h : Text.behindName base = c :: cs) :
    c ∈ base.toList := by
  have hmem : c ∈ Text.behindName base := by
    rw [h]
    exact List.mem_cons_self
  exact (List.dropWhile_suffix isNameChar).mem hmem

theorem eq_of_behindName {c c' : Char} {cs cs' : List Char} (h : Text.behindName base = c :: cs)
    (h' : Text.behindName base = c' :: cs') : c = c' :=
  (List.cons.inj (h.symm.trans h')).1

/-- **A property with an opacity** begins with a bracket, and a value ends in front of its modifier. -/
theorem apart_propertyWithOpacity {form : Form} (hform : form ≠ .propertyWithOpacity) :
    Apart base .propertyWithOpacity form := by
  rw [apart_iff]
  intro declarations declarations' h h'
  obtain ⟨hmodified, cs, hcs⟩ := behindName_of_propertyWithOpacity? h
  obtain ⟨inner, modifier, hbehind, -⟩ := id hmodified
  cases form with
  | propertyWithOpacity => exact hform rfl
  | colorWithOpacity =>
    obtain ⟨family, color, modifier', hbase, hfamily, -⟩ := shape_of_colorWithOpacity? h'
    have hname := isIdentifier_of_mem_knownFamilies (mem_knownFamilies_of_mem_table hfamily)
    rw [hbase] at hcs
    simp only [String.toList_append, List.append_assoc] at hcs
    exact Text.ne_of_isIdentifier hname (by decide) _ _ hcs
  | bracketed => exact hmodified.not_isClosed (behindName_of_bracketed? h')
  | parenthesized =>
    obtain ⟨name, hbehind', -⟩ := behindName_of_parenthesized? h'
    exact absurd (eq_of_behindName hbehind hbehind') (by decide)
  | numeric => exact (not_mem_of_numeric? h').1 (mem_of_behindName hbehind)
  | typedParenthesized =>
    obtain ⟨hint, cs', hbehind', -⟩ := behindName_of_typedParenthesized? h'
    exact absurd (eq_of_behindName hbehind hbehind') (by decide)

/-- **A color with an opacity** has a modifier, in front of which a value or a reference ends. -/
theorem apart_colorWithOpacity {form : Form} (hform : form ≠ .propertyWithOpacity)
    (hform' : form ≠ .colorWithOpacity) : Apart base .colorWithOpacity form := by
  rw [apart_iff]
  intro declarations declarations' h h'
  have hbehind := behindName_of_colorWithOpacity? h
  cases form with
  | propertyWithOpacity => exact hform rfl
  | colorWithOpacity => exact hform' rfl
  | bracketed =>
    have hclosed := behindName_of_bracketed? h'
    obtain ⟨inner, hbehind', -⟩ := id hclosed
    rcases hbehind with hmodified | ⟨name, modifier, hbehind, -⟩ | ⟨modifier, hbehind⟩
    · exact hmodified.not_isClosed hclosed
    · exact absurd (eq_of_behindName hbehind hbehind') (by decide)
    · exact absurd (eq_of_behindName hbehind hbehind') (by decide)
  | parenthesized =>
    obtain ⟨name', hbehind', hname'⟩ := behindName_of_parenthesized? h'
    rcases hbehind with ⟨inner, modifier, hbehind, -⟩ | ⟨name, modifier, hbehind, hname⟩ | ⟨modifier, hbehind⟩
    · exact absurd (eq_of_behindName hbehind hbehind') (by decide)
    · have heq : name ++ ')' :: '/' :: modifier = name' ++ [')'] := by
        simpa using hbehind.symm.trans hbehind'
      exact Text.ne_of_closers hname hname' (by decide) (by decide) (by simp) heq
    · exact absurd (eq_of_behindName hbehind hbehind') (by decide)
  | numeric =>
    have hnone := numeric?_of_colorWithOpacity? h
    rw [show numeric? base = some declarations' from h'] at hnone
    cases hnone
  | typedParenthesized =>
    obtain ⟨hint, cs, hbehind', hhint⟩ := behindName_of_typedParenthesized? h'
    rcases hbehind with ⟨inner, modifier, hbehind, -⟩ | ⟨name, modifier, hbehind, hname⟩ | ⟨modifier, hbehind⟩
    · exact absurd (eq_of_behindName hbehind hbehind') (by decide)
    · have heq := (List.cons.inj (hbehind.symm.trans hbehind')).2
      exact Text.ne_of_closers (Text.all_isNameChar_dashes hname) hhint (by decide) (by decide) (by simp) heq
    · exact absurd (eq_of_behindName hbehind hbehind') (by decide)

/-- **A value in brackets** has the bracket behind its name, where the forms that are left have a
parenthesis or a number. -/
theorem apart_bracketed (base : String) : Apart base .bracketed .parenthesized ∧ Apart base .bracketed .numeric ∧
    Apart base .bracketed .typedParenthesized := by
  simp only [apart_iff]
  refine ⟨?_, ?_, ?_⟩ <;> intro declarations declarations' h h' <;>
    obtain ⟨inner, hbehind, -⟩ := behindName_of_bracketed? h
  · obtain ⟨name, hbehind', -⟩ := behindName_of_parenthesized? h'
    exact absurd (eq_of_behindName hbehind hbehind') (by decide)
  · exact (not_mem_of_numeric? h').1 (mem_of_behindName hbehind)
  · obtain ⟨hint, cs, hbehind', -⟩ := behindName_of_typedParenthesized? h'
    exact absurd (eq_of_behindName hbehind hbehind') (by decide)

/-- **References and numbers** are told apart by the colon of a type hint and by the parenthesis. -/
theorem apart_parenthesized (base : String) : Apart base .parenthesized .numeric ∧
    Apart base .parenthesized .typedParenthesized ∧ Apart base .numeric .typedParenthesized := by
  simp only [apart_iff]
  refine ⟨?_, ?_, ?_⟩ <;> intro declarations declarations' h h'
  · obtain ⟨name, hbehind, -⟩ := behindName_of_parenthesized? h
    exact (not_mem_of_numeric? h').2 (mem_of_behindName hbehind)
  · obtain ⟨name, hbehind, hname⟩ := behindName_of_parenthesized? h
    obtain ⟨hint, cs, hbehind', hhint⟩ := behindName_of_typedParenthesized? h'
    have heq : '-' :: '-' :: name ++ [')'] = hint ++ ':' :: cs :=
      (List.cons.inj (hbehind.symm.trans hbehind')).2
    exact Text.ne_of_closers (Text.all_isNameChar_dashes hname) hhint (by decide) (by decide) (by simp) heq
  · obtain ⟨hint, cs, hbehind', -⟩ := behindName_of_typedParenthesized? h'
    exact (not_mem_of_numeric? h).2 (mem_of_behindName hbehind')

/-- The six forms are apart, one by one. -/
theorem pairwise_apart (base : String) : Form.all.Pairwise (Apart base) := by
  obtain ⟨hparenthesized, hnumeric, htyped⟩ := apart_bracketed base
  obtain ⟨hnumeric', htyped', htyped''⟩ := apart_parenthesized base
  refine .cons (fun form hform => apart_propertyWithOpacity ?_) (.cons (fun form hform => ?_) ?_)
  · rintro rfl
    exact absurd hform (by decide)
  · refine apart_colorWithOpacity ?_ ?_ <;>
    · rintro rfl
      exact absurd hform (by decide)
  · simp only [List.pairwise_cons, List.mem_cons, List.not_mem_nil, or_false, forall_eq_or_imp, forall_eq,
      false_imp_iff, implies_true, List.Pairwise.nil, and_true]
    exact ⟨⟨hparenthesized, hnumeric, htyped⟩, ⟨hnumeric', htyped'⟩, htyped''⟩

/-- **At most one form reads a utility**, whatever the tests of shape say. -/
theorem Form.eq_of_read? {form form' : Form} (h : (form.read? base).isSome)
    (h' : (form'.read? base).isSome) : form = form' := by
  by_contra hne
  rcases (pairwise_apart base).forall form.mem_all form'.mem_all hne with hnone | hnone
  · rw [hnone] at h
    cases h
  · rw [hnone] at h'
    cases h'

/-- **A dynamic utility is what one of its forms reads.** A form whose shape fits is never passed over, since no
other form reads the same text. -/
theorem resolve?_eq_some_iff :
    resolve? base = some declarations ↔
      ∃ form : Form, form.fits base = true ∧ form.read? base = some declarations := by
  constructor
  · exact exists_form_of_resolve?
  · rintro ⟨form, hfits, hread⟩
    have hform : form.resolve? base = some declarations := by rw [Form.resolve?, if_pos hfits, hread]
    cases h : resolve? base with
    | some found =>
      obtain ⟨form', -, hread'⟩ := exists_form_of_resolve? h
      obtain rfl := Form.eq_of_read? (Option.isSome_iff_exists.2 ⟨_, hread'⟩)
        (Option.isSome_iff_exists.2 ⟨_, hread⟩)
      rw [← hread', hread]
    | none =>
      unfold resolve? at h
      split at h
      · rename_i hempty
        -- no form fits the empty text
        rw [String.isEmpty_iff] at hempty
        subst hempty
        cases form <;> exact absurd hfits (by decide)
      · have hnone := List.findSome?_eq_none_iff.1 h form form.mem_all
        rw [hform] at hnone
        cases hnone

end Apart

/-! ## The order of the forms -/

/-- A search in which at most one candidate succeeds finds the same in every order. -/
theorem findSome?_of_perm {α β : Type} {f : α → Option β} {l l' : List α} (h : l.Perm l')
    (hunique : ∀ a b, (f a).isSome → (f b).isSome → a = b) : l.findSome? f = l'.findSome? f := by
  induction h with
  | nil => rfl
  | cons a _ ih => rw [List.findSome?_cons, List.findSome?_cons, ih]
  | swap a b l =>
    simp only [List.findSome?_cons]
    cases ha : f a with
    | none => rfl
    | some value =>
      cases hb : f b with
      | none => rfl
      | some value' =>
        obtain rfl := hunique a b (by rw [ha]; rfl) (by rw [hb]; rfl)
        rw [← ha, ← hb]
  | trans _ _ ih ih' => exact ih.trans ih'

theorem Form.isSome_read?_of_resolve? {form : Form} {base : String} (h : (form.resolve? base).isSome) :
    (form.read? base).isSome := by
  unfold Form.resolve? at h
  split at h
  · exact h
  · cases h

/-- **The order of the forms is free.** At most one form has its shape fit a utility and its reading give
declarations, so the search comes to the same in every order of the forms. -/
theorem order_of_forms_is_free (base : String) :
    (∀ form form' : Form, form.fits base = true → (form.read? base).isSome →
      form'.fits base = true → (form'.read? base).isSome → form = form') ∧
    ∀ order : List Form, order.Perm Form.all →
      (if base.isEmpty then none else order.findSome? (Form.resolve? · base)) = resolve? base := by
  refine ⟨fun form form' _ h _ h' => Form.eq_of_read? h h', fun order horder => ?_⟩
  rw [resolve?, findSome?_of_perm horder fun form form' h h' =>
    Form.eq_of_read? (Form.isSome_read?_of_resolve? h) (Form.isSome_read?_of_resolve? h')]

/-- Two of the forms fit `bg-[#fff]/[0.5]`, a color with an opacity. It is no value in brackets, and the
forms may be tried from behind as well. -/
theorem bg_half_has_one_form :
    Form.bracketed.fits "bg-[#fff]/[0.5]" = true ∧ Form.colorWithOpacity.fits "bg-[#fff]/[0.5]" = true ∧
    (Form.colorWithOpacity.read? "bg-[#fff]/[0.5]").isSome ∧
    ¬ (Form.bracketed.read? "bg-[#fff]/[0.5]").isSome ∧
    Form.all.reverse.findSome? (Form.resolve? · "bg-[#fff]/[0.5]") = resolve? "bg-[#fff]/[0.5]" := by
  obtain ⟨hunique, horder⟩ := order_of_forms_is_free "bg-[#fff]/[0.5]"
  have hfits : Form.bracketed.fits "bg-[#fff]/[0.5]" = true := by decide +kernel
  have hfits' : Form.colorWithOpacity.fits "bg-[#fff]/[0.5]" = true := by decide +kernel
  have hread : (Form.colorWithOpacity.read? "bg-[#fff]/[0.5]").isSome := by decide +kernel
  refine ⟨hfits, hfits', hread, fun hread' => ?_, ?_⟩
  · exact absurd (hunique .bracketed .colorWithOpacity hfits hread' hfits' hread) (by decide)
  · rw [← horder Form.all.reverse Form.all.reverse_perm, if_neg (by decide +kernel)]

end Dynamic

end AtomicCss
