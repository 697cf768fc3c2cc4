import AtomicCss.Proofs.Dynamic.Composition
import AtomicCss.Proofs.Dynamic.Nesting

/-!
# Two spellings of a reference

A utility refers to a custom property in parentheses, `family-(--name)`, or with the reference written out in brackets,
`family-[var(--name)]`. The two are read by different forms, and with an opacity behind them by different branches of
the same form. This module says that they come to the same all the same, whatever the family is, and whatever stands
behind them.

Both spellings are taken apart at the first bracket of the utility. The family has none, so what stands in front of
that bracket is the family, for every form that can read the utility at all.

## The architecture

* **`Spelling`** — the two ways to write a reference.
* **`eq_of_opener`** — the first bracket, in whatever way the utility is taken apart.
* **`exists_opacity_of_colorWithOpacity?`**, **`bare_of_bracketed?`**, **`bare_of_parenthesized?`** — what the forms
  make of a reference; the other three read none.
* **`resolve?_spelling_iff`** — what a utility with a reference sets, without a word about the spelling.
* **`spellings_agree`** — so the spelling does not matter.
-/

namespace AtomicCss.Dynamic

open Text (isIdentifier isNameChar)

/-- The two ways to write a reference to a custom property. -/
inductive Spelling where
  /-- `(--name)` -/
  | parentheses
  /-- `[var(--name)]` -/
  | brackets
  deriving DecidableEq, Repr

def Spelling.text : Spelling → String → String
  | parentheses, name => "(--" ++ name ++ ")"
  | brackets, name => "[" ++ ("var(--" ++ name ++ ")") ++ "]"

/-- The names of custom properties that are the same in brackets, where an underscore stands for a space. -/
def IsPlainName (name : String) : Prop :=
  name ≠ "" ∧ ∀ c ∈ name.toList, c.isAlphanum = true ∨ c = '-'

/-- Whether a character opens no bracket. -/
def opensNothing (c : Char) : Bool :=
  c != '[' && c != '('

variable {family name suffix : String} {spelling : Spelling} {declarations : List Declaration}

/-! ## Names and references -/

theorem IsPlainName.isIdentifier (h : IsPlainName name) : isIdentifier name = true := by
  refine Text.isIdentifier_iff.2 ⟨h.1, fun c hc => ?_⟩
  rcases h.2 c hc with halpha | rfl
  · simp [isNameChar, halpha]
  · rfl

theorem IsPlainName.not_mem (h : IsPlainName name) : '_' ∉ name.toList := fun hmem => by
  rcases h.2 _ hmem with halpha | hdash
  · exact absurd halpha (by decide)
  · exact absurd hdash (by decide)

theorem opensNothing_of_isNameChar {c : Char} (h : isNameChar c = true) : opensNothing c = true := by
  have hsquare : c ≠ '[' := by
    rintro rfl
    cases h
  have hround : c ≠ '(' := by
    rintro rfl
    cases h
  simp [opensNothing, hsquare, hround]

theorem opensNothing_of_isIdentifier {s : String} (h : isIdentifier s = true) :
    ∀ c ∈ s.toList, opensNothing c = true := fun c hc =>
  opensNothing_of_isNameChar (Text.all_isNameChar_of_isIdentifier h c hc)

/-- A reference in brackets stands for itself. -/
theorem arbitrary?_reference (h : IsPlainName name) :
    arbitrary? ("var(--" ++ name ++ ")") = some ("var(--" ++ name ++ ")") := by
  have hname := h.isIdentifier
  have hbackslash : '\\' ∉ name.toList := Text.not_mem_of_isIdentifier hname (by decide)
  refine arbitrary?_eq_some_iff.2 ⟨?_, breaksOut_var hname, (nested_reference hname).2.isBalanced, ?_⟩
  · exact List.all_eq_false.2 ⟨'v', by simp, by decide⟩
  · have haddress : ¬ Text.startsWith "url(" ("var(--" ++ name ++ ")") = true := fun hstart => by
      obtain ⟨rest, hrest⟩ := Text.startsWith_iff.1 hstart
      have hchars := congrArg String.toList hrest
      simp at hchars
    rw [meaning, if_neg haddress, Text.decodeSpaces_of_not_mem (by simp [h.not_mem]) (by simp [hbackslash])]

/-- A reference in brackets has no type hint in front. -/
theorem splitHint_reference (h : IsPlainName name) :
    splitHint ("var(--" ++ name ++ ")") = (none, "var(--" ++ name ++ ")") := by
  have hcolon : ':' ∉ name.toList := Text.not_mem_of_isIdentifier h.isIdentifier (by decide)
  exact splitHint_of_not_mem (by simp [hcolon])

/-- In front of an opacity both spellings are read as the reference. -/
theorem opaqueColor?_text (h : IsPlainName name) (spelling : Spelling) :
    opaqueColor? (spelling.text name) = some ("var(--" ++ name ++ ")") := by
  cases spelling with
  | parentheses =>
    have houtside : Text.enclosed? "[" "]" (Spelling.parentheses.text name) = none := by
      rw [Option.eq_none_iff_forall_ne_some]
      intro inner hinner
      have hchars := congrArg String.toList (Text.eq_append_of_enclosed? hinner)
      simp [Spelling.text] at hchars
    have hstart : Text.startsWith "(" (Spelling.parentheses.text name) = true :=
      Text.startsWith_iff.2 ⟨"--" ++ name ++ ")", by simp only [Spelling.text, ← String.append_assoc]; rfl⟩
    rw [opaqueColor?, houtside]
    dsimp only
    rw [if_pos hstart]
    exact reference?_eq_some_iff.2 ⟨name, h.isIdentifier, rfl, rfl⟩
  | brackets =>
    have hinside : Text.enclosed? "[" "]" (Spelling.brackets.text name) = some ("var(--" ++ name ++ ")") :=
      Text.enclosed?_append _ _ _
    have hcolor : isColorValue ("var(--" ++ name ++ ")") = true := by
      rw [isColorValue, Bool.or_eq_true]
      exact .inr (Text.startsWith_iff.2 ⟨"--" ++ name ++ ")", by simp only [← String.append_assoc]; rfl⟩)
    rw [opaqueColor?, hinside]
    dsimp only
    rw [arbitrary?_reference h, Option.filter_some, if_pos hcolor]

theorem depth_text (h : IsPlainName name) (spelling : Spelling) :
    Text.depth (spelling.text name).toList = 0 := by
  have hname : Text.depth name.toList = 0 := Text.depth_of_forall fun c hc =>
    isBracket_of_isNameChar (Text.all_isNameChar_of_isIdentifier h.isIdentifier c hc)
  cases spelling <;> simp [Spelling.text, Text.depth, Text.depth_append, Text.weight, hname]

/-! ## The first bracket -/

/-- The first character of a text opens a bracket. -/
def BeginsWithOpener (s : String) : Prop :=
  ∃ c ∈ s.toList.head?, opensNothing c = false

theorem beginsWithOpener_text (spelling : Spelling) (name suffix : String) :
    BeginsWithOpener (spelling.text name ++ suffix) := by
  cases spelling with
  | parentheses => exact ⟨'(', by simp [Spelling.text], rfl⟩
  | brackets => exact ⟨'[', by simp [Spelling.text], rfl⟩

theorem opensNothing_dash (hfamily : ∀ c ∈ family.toList, opensNothing c = true) :
    ∀ c ∈ family.toList ++ ['-'], opensNothing c = true := by
  intro c hc
  rcases List.mem_append.1 hc with hc | hc
  · exact hfamily c hc
  · obtain rfl := List.mem_singleton.1 hc
    rfl

/-- **In front of its first bracket a utility has a family and a dash**, in only one way. -/
theorem eq_of_opener {family' rest rest' : String} (hfamily : ∀ c ∈ family.toList, opensNothing c = true)
    (hfamily' : ∀ c ∈ family'.toList, opensNothing c = true)
    (hrest : BeginsWithOpener rest) (hrest' : BeginsWithOpener rest')
    (heq : family ++ "-" ++ rest = family' ++ "-" ++ rest') : family = family' ∧ rest = rest' := by
  obtain ⟨c, hhead, hc⟩ := hrest
  obtain ⟨c', hhead', hc'⟩ := hrest'
  obtain ⟨cs, hchars⟩ := List.head?_eq_some_iff.1 hhead
  obtain ⟨cs', hchars'⟩ := List.head?_eq_some_iff.1 hhead'
  have hsides := congrArg String.toList heq
  simp only [String.toList_append, hchars, hchars'] at hsides
  obtain ⟨hfront, rfl, rfl⟩ := Text.append_cons_inj_of_test (opensNothing_dash hfamily) (opensNothing_dash hfamily') hc
    hc' hsides
  exact ⟨String.toList_injective (List.append_cancel_right hfront), String.toList_injective (hchars.trans hchars'.symm)⟩

theorem not_beginsWithOpener (hfamily : ∀ c ∈ family.toList, opensNothing c = true) (rest : String) :
    ¬ BeginsWithOpener (family ++ "-" ++ rest) := by
  rintro ⟨c, hhead, hc⟩
  have hmem : c ∈ family.toList ++ ['-'] := by
    rw [String.toList_append, String.toList_append, List.head?_append_of_ne_nil _ (by simp)] at hhead
    exact List.mem_of_head? hhead
  rw [opensNothing_dash hfamily c hmem] at hc
  cases hc

/-- What follows the name of a reference in parentheses. -/
theorem eq_of_parentheses {name' suffix' : String} (hname : isIdentifier name = true)
    (hname' : isIdentifier name' = true)
    (heq : Spelling.parentheses.text name ++ suffix = "(--" ++ name' ++ ")" ++ suffix') :
    name = name' ∧ suffix = suffix' := by
  have hsides := congrArg String.toList heq
  simp only [Spelling.text, String.toList_append, List.append_assoc, List.append_cancel_left_eq] at hsides
  have hclosing : isNameChar ')' = false := rfl
  obtain ⟨hfront, -, hrest⟩ := Text.append_cons_inj_of_test
    (Text.all_isNameChar_of_isIdentifier hname) (Text.all_isNameChar_of_isIdentifier hname') hclosing hclosing hsides
  exact ⟨String.toList_injective hfront, String.toList_injective hrest⟩

/-- What stands in the brackets of a reference. -/
theorem eq_of_brackets {inner suffix' : String} (hname : isIdentifier name = true)
    (hinner : Text.closes '[' ']' 0 inner.toList = true)
    (heq : Spelling.brackets.text name ++ suffix = "[" ++ inner ++ "]" ++ suffix') :
    "var(--" ++ name ++ ")" = inner ∧ suffix = suffix' := by
  have hvalue : Text.closes '[' ']' 0 ("var(--" ++ name ++ ")").toList = true :=
    (Bool.and_eq_true_iff.1 (nested_reference hname).2.isBalanced).1
  have hchars := congrArg String.toList heq
  have hsides : ("var(--" ++ name ++ ")").toList ++ ']' :: suffix.toList = inner.toList ++ ']' :: suffix'.toList := by
    simpa [Spelling.text] using hchars
  obtain ⟨hvar, hsuffix⟩ := Text.eq_of_closes (by decide) hvalue hinner hsides
  exact ⟨String.toList_injective hvar, String.toList_injective hsuffix⟩

/-- A modifier begins with a bracket or has none. -/
theorem beginsWithOpener_of_opacity? {modifier percentage : String} (h : opacity? modifier = some percentage) :
    BeginsWithOpener modifier ∨ ∀ c ∈ modifier.toList, opensNothing c = true := by
  rcases opacity?_cases h with ⟨hnumeral, -⟩ | ⟨number, -, rfl, -⟩ | ⟨inner, fraction, rfl, -⟩ | hreference
  · refine .inr fun c hc => ?_
    rcases Text.isDigit_or_of_isPlainNumeral hnumeral c hc with hdigit | rfl
    · exact opensNothing_of_isNameChar (by simp [isNameChar, Char.isAlphanum, hdigit])
    · rfl
  · exact .inl ⟨'[', by simp, rfl⟩
  · exact .inl ⟨'[', by simp, rfl⟩
  · obtain ⟨name, -, rfl, -⟩ := reference?_eq_some_iff.1 hreference
    exact .inl ⟨'(', by simp, rfl⟩

/-- A color of the palette has no bracket, so the first one of the utility stands behind the slash. -/
theorem ne_of_palette {family' color value modifier percentage rest : String}
    (hfamily : ∀ c ∈ family.toList, opensNothing c = true) (hfamily' : isIdentifier family' = true)
    (hpalette : Palette.resolve? color = some value) (hpercentage : opacity? modifier = some percentage)
    (hrest : BeginsWithOpener rest) : family ++ "-" ++ rest ≠ family' ++ "-" ++ (color ++ "/" ++ modifier) := by
  intro heq
  have hfront : ∀ c ∈ (family' ++ "-" ++ color).toList ++ ['/'], opensNothing c = true := by
    intro c hc
    rw [String.toList_append, String.toList_append, List.mem_append, List.mem_append] at hc
    rcases hc with (hc | hc) | hc
    · exact opensNothing_of_isNameChar (Text.all_isNameChar_dash hfamily' c (by simpa using hc))
    · exact opensNothing_of_isIdentifier (isIdentifier_of_palette? hpalette) c hc
    · obtain rfl := List.mem_singleton.1 hc
      rfl
  obtain ⟨c, hhead, hc⟩ := hrest
  obtain ⟨cs, hcs⟩ := List.head?_eq_some_iff.1 hhead
  have hchars : (family.toList ++ ['-']) ++ c :: cs =
      ((family' ++ "-" ++ color).toList ++ ['/']) ++ modifier.toList := by
    have hsides := congrArg String.toList heq
    simpa [hcs] using hsides
  rcases beginsWithOpener_of_opacity? hpercentage with ⟨c', hhead', hc'⟩ | hnone
  · obtain ⟨cs', hcs'⟩ := List.head?_eq_some_iff.1 hhead'
    rw [hcs'] at hchars
    have hlast := (Text.append_cons_inj_of_test (opensNothing_dash hfamily) hfront hc hc' hchars).1
    exact absurd (List.append_inj_right' hlast rfl) (by decide)
  · have hmem : c ∈ ((family' ++ "-" ++ color).toList ++ ['/']) ++ modifier.toList := by
      rw [← hchars]
      simp
    rw [(List.mem_append.1 hmem).elim (hfront c) (hnone c)] at hc
    cases hc

/-! ## The forms -/

section Forms

variable (hfamily : ∀ c ∈ family.toList, opensNothing c = true) (hname : IsPlainName name)

include hfamily hname

/-- Only a reference in parentheses with nothing behind it. -/
theorem bare_of_parenthesized?
    (h : parenthesized? (family ++ "-" ++ (spelling.text name ++ suffix)) = some declarations) :
    suffix = "" ∧ assign? family none ("var(--" ++ name ++ ")") = some declarations := by
  obtain ⟨family', name', hbase, hname', hassign⟩ := parenthesized?_eq_some h
  have hreference : BeginsWithOpener ("(--" ++ name' ++ ")") := ⟨'(', by simp, rfl⟩
  have hbase : family ++ "-" ++ (spelling.text name ++ suffix) = family' ++ "-" ++ ("(--" ++ name' ++ ")") := by
    rw [hbase]
    simp only [String.append_assoc]
  obtain ⟨rfl, hrest⟩ := eq_of_opener hfamily
    (opensNothing_of_isIdentifier (isFamily_of_assign? hassign).isIdentifier) (beginsWithOpener_text ..) hreference
    hbase
  cases spelling with
  | parentheses =>
    rw [← String.append_empty (s := "(--" ++ name' ++ ")")] at hrest
    obtain ⟨rfl, rfl⟩ := eq_of_parentheses hname.isIdentifier hname' hrest
    exact ⟨rfl, hassign⟩
  | brackets =>
    have hchars := congrArg String.toList hrest
    simp [Spelling.text] at hchars

/-- Only a reference in brackets with nothing behind it: a bracket behind it would be one too many. -/
theorem bare_of_bracketed? (hfits : Form.bracketed.fits (family ++ "-" ++ (spelling.text name ++ suffix)) = true)
    (h : bracketed? (family ++ "-" ++ (spelling.text name ++ suffix)) = some declarations) :
    suffix = "" ∧ assign? family none ("var(--" ++ name ++ ")") = some declarations := by
  rcases shape_of_bracketed? h with ⟨name', raw, hbase, -⟩ | ⟨family', rest, hbase, hisFamily, hclosed⟩
  · refine absurd ?_ (not_beginsWithOpener hfamily (spelling.text name ++ suffix))
    rw [hbase]
    exact ⟨'[', by simp, rfl⟩
  · have hsplit : family ++ "-" ++ (spelling.text name ++ suffix) = family' ++ "-" ++ ("[" ++ rest) := by
      rw [hbase, show "-[" = "-" ++ "[" from rfl]
      simp only [String.append_assoc]
    obtain ⟨rfl, hrest⟩ := eq_of_opener hfamily (opensNothing_of_isIdentifier hisFamily.isIdentifier)
      (beginsWithOpener_text ..) ⟨'[', by simp, rfl⟩ hsplit
    obtain ⟨inner, rfl⟩ := exists_eq_append_of_fits hfits hbase
    rw [Text.before?_eq_some_iff.2 rfl, Option.getD_some] at hclosed
    cases spelling with
    | parentheses =>
      have hchars := congrArg String.toList hrest
      simp [Spelling.text] at hchars
    | brackets =>
      have heq : Spelling.brackets.text name ++ suffix = "[" ++ inner ++ "]" ++ "" := by
        rw [hrest, String.append_empty, String.append_assoc]
      obtain ⟨rfl, rfl⟩ := eq_of_brackets hname.isIdentifier hclosed heq
      rw [hbase, ← String.append_assoc, bracketed?_append hisFamily.isIdentifier, splitHint_reference hname,
        arbitrary?_reference hname, Option.bind_some] at h
      exact ⟨rfl, h⟩

/-- Only a reference in front of an opacity. -/
theorem exists_opacity_of_colorWithOpacity?
    (h : colorWithOpacity? (family ++ "-" ++ (spelling.text name ++ suffix)) = some declarations) :
    ∃ properties modifier percentage, (family, properties) ∈ ColorFamily.table ∧ suffix = "/" ++ modifier ∧
      opacity? modifier = some percentage ∧
      declarations = Declaration.each properties (colorMix ("var(--" ++ name ++ ")") percentage) := by
  obtain ⟨family', properties, color, modifier, value, percentage, hbase, hmem, -, hvalue, hpercentage, rfl⟩ :=
    colorWithOpacity?_eq_some h
  have hfamily' := isIdentifier_of_mem_knownFamilies
    (mem_knownFamilies_of_mem_table (List.mem_map.2 ⟨_, hmem, rfl⟩))
  have hsplit : family ++ "-" ++ (spelling.text name ++ suffix) =
      family' ++ "-" ++ (color ++ "/" ++ modifier) := by
    rw [hbase]
    simp only [String.append_assoc]
  rcases opaqueColor?_cases hvalue with ⟨inner, rfl, hauthored, -⟩ | hreference | hpalette
  · obtain ⟨rfl, hrest⟩ := eq_of_opener hfamily (opensNothing_of_isIdentifier hfamily') (beginsWithOpener_text ..)
      ⟨'[', by simp, rfl⟩ hsplit
    cases spelling with
    | parentheses =>
      have hchars := congrArg String.toList hrest
      simp [Spelling.text] at hchars
    | brackets =>
      rw [String.append_assoc] at hrest
      obtain ⟨rfl, rfl⟩ := eq_of_brackets hname.isIdentifier
        (Bool.and_eq_true_iff.1 (isBalanced_of_arbitrary? hauthored)).1 hrest
      obtain rfl := Option.some.inj ((arbitrary?_reference hname).symm.trans hauthored)
      exact ⟨properties, modifier, percentage, hmem, rfl, hpercentage, rfl⟩
  · obtain ⟨name', hname', rfl, rfl⟩ := reference?_eq_some_iff.1 hreference
    obtain ⟨rfl, hrest⟩ := eq_of_opener hfamily (opensNothing_of_isIdentifier hfamily') (beginsWithOpener_text ..)
      ⟨'(', by simp, rfl⟩ hsplit
    cases spelling with
    | parentheses =>
      rw [String.append_assoc] at hrest
      obtain ⟨rfl, rfl⟩ := eq_of_parentheses hname.isIdentifier hname' hrest
      exact ⟨properties, modifier, percentage, hmem, rfl, hpercentage, rfl⟩
    | brackets =>
      have hchars := congrArg String.toList hrest
      simp [Spelling.text] at hchars
  · exact absurd hsplit (ne_of_palette hfamily hfamily' hpalette hpercentage (beginsWithOpener_text ..))

/-- No reference with a hint: behind the name in front of it there is a colon. -/
theorem typedParenthesized?_eq_none :
    typedParenthesized? (family ++ "-" ++ (spelling.text name ++ suffix)) = none := by
  rw [Option.eq_none_iff_forall_ne_some]
  intro declarations h
  obtain ⟨family', hint, name', hbase, hfamily', hhint, -⟩ := shape_of_typedParenthesized? h
  have hsplit : family ++ "-" ++ (spelling.text name ++ suffix) =
      family' ++ "-" ++ ("(" ++ hint ++ ":--" ++ name' ++ ")") := by
    rw [hbase]
    simp only [String.append_assoc]
  obtain ⟨rfl, hrest⟩ := eq_of_opener hfamily
    (opensNothing_of_isIdentifier (isIdentifier_of_mem_knownFamilies hfamily')) (beginsWithOpener_text ..)
    ⟨'(', by simp, rfl⟩ hsplit
  have hchars := congrArg String.toList hrest
  cases spelling with
  | parentheses =>
    have heq : ('-' :: '-' :: name.toList) ++ ')' :: suffix.toList =
        hint.toList ++ ':' :: ("--" ++ name' ++ ")").toList := by
      simpa [Spelling.text] using hchars
    exact absurd heq (Text.ne_of_closers
      (Text.all_isNameChar_dashes (Text.all_isNameChar_of_isIdentifier hname.isIdentifier))
      (Text.all_isNameChar_of_isIdentifier hhint) rfl rfl (by simp))
  | brackets => simp [Spelling.text] at hchars

end Forms

/-! ## What a reference sets -/

theorem resolve?_reference (hname : IsPlainName name)
    (hassign : assign? family none ("var(--" ++ name ++ ")") = some declarations) (spelling : Spelling) :
    resolve? (family ++ "-" ++ spelling.text name) = some declarations := by
  have hfamily := (isFamily_of_assign? hassign).isIdentifier
  cases spelling with
  | parentheses =>
    have hbase : family ++ "-" ++ Spelling.parentheses.text name = family ++ "-(--" ++ name ++ ")" := by
      rw [Spelling.text, show "-(--" = "-" ++ "(--" from rfl]
      simp only [String.append_assoc]
    rw [hbase]
    exact resolve?_parenthesized hfamily hname.isIdentifier hassign
  | brackets =>
    have hbase : family ++ "-" ++ Spelling.brackets.text name = family ++ "-[" ++ ("var(--" ++ name ++ ")") ++ "]" := by
      rw [Spelling.text, show "-[" = "-" ++ "[" from rfl]
      simp only [String.append_assoc]
    rw [hbase]
    exact resolve?_bracketed hfamily (splitHint_reference hname) (arbitrary?_reference hname) hassign

theorem resolve?_reference_opacity {properties : List String} {modifier percentage : String} (hname : IsPlainName name)
    (hmem : (family, properties) ∈ ColorFamily.table) (hpercentage : opacity? modifier = some percentage)
    (spelling : Spelling) :
    resolve? (family ++ "-" ++ (spelling.text name ++ ("/" ++ modifier))) =
      some (Declaration.each properties (colorMix ("var(--" ++ name ++ ")") percentage)) := by
  obtain ⟨c, hhead, hc⟩ := beginsWithOpener_text spelling name ""
  obtain ⟨cs, hcs⟩ := List.head?_eq_some_iff.1 hhead
  rw [String.append_empty] at hcs
  have hopener : isNameChar c = false := by
    rw [← Bool.not_eq_true]
    intro hnameChar
    rw [opensNothing_of_isNameChar hnameChar] at hc
    cases hc
  have hbase : family ++ "-" ++ (spelling.text name ++ ("/" ++ modifier)) =
      family ++ "-" ++ spelling.text name ++ "/" ++ modifier := by
    simp only [String.append_assoc]
  rw [hbase]
  exact resolve?_colorWithOpacity hmem hcs hopener (depth_text hname spelling) (opaqueColor?_text hname spelling)
    hpercentage

/-- **What a utility with a reference sets**: what its family does with the reference, or its colors mixed with the
opacity behind it. The spelling does not occur in it. -/
theorem resolve?_spelling_iff (hsquare : '[' ∉ family.toList) (hround : '(' ∉ family.toList)
    (hname : IsPlainName name) (spelling : Spelling) :
    resolve? (family ++ "-" ++ (spelling.text name ++ suffix)) = some declarations ↔
      (suffix = "" ∧ assign? family none ("var(--" ++ name ++ ")") = some declarations) ∨
      ∃ properties modifier percentage, (family, properties) ∈ ColorFamily.table ∧ suffix = "/" ++ modifier ∧
        opacity? modifier = some percentage ∧
        declarations = Declaration.each properties (colorMix ("var(--" ++ name ++ ")") percentage) := by
  have hfamily : ∀ c ∈ family.toList, opensNothing c = true := by
    intro c hc
    have hsquare : c ≠ '[' := fun heq => hsquare (heq ▸ hc)
    have hround : c ≠ '(' := fun heq => hround (heq ▸ hc)
    simp [opensNothing, hsquare, hround]
  constructor
  · intro h
    obtain ⟨form, hfits, hread⟩ := exists_form_of_resolve? h
    cases form with
    | propertyWithOpacity =>
      obtain ⟨-, cs, hcs⟩ := behindName_of_propertyWithOpacity? hread
      refine absurd ?_ (not_beginsWithOpener hfamily (spelling.text name ++ suffix))
      exact ⟨'[', by rw [hcs]; rfl, rfl⟩
    | colorWithOpacity => exact .inr (exists_opacity_of_colorWithOpacity? hfamily hname hread)
    | bracketed => exact .inl (bare_of_bracketed? hfamily hname hfits hread)
    | parenthesized => exact .inl (bare_of_parenthesized? hfamily hname hread)
    | numeric =>
      refine absurd ?_ (not_mem_of_numeric? hread).2
      cases spelling <;> simp [Spelling.text]
    | typedParenthesized => cases (typedParenthesized?_eq_none hfamily hname).symm.trans hread
  · rintro (⟨rfl, hassign⟩ | ⟨properties, modifier, percentage, hmem, rfl, hpercentage, rfl⟩)
    · rw [String.append_empty]
      exact resolve?_reference hname hassign spelling
    · exact resolve?_reference_opacity hname hmem hpercentage spelling

/-- **The two spellings of a reference agree**, for every family and whatever stands behind the reference. Both are no
utility, or they set the same: without anything behind them what the family does with the reference, and the colors of
the family behind which an opacity follows. -/
theorem spellings_agree (hsquare : '[' ∉ family.toList) (hround : '(' ∉ family.toList) (hname : IsPlainName name)
    (suffix : String) :
    resolve? (family ++ "-(--" ++ name ++ ")" ++ suffix) = resolve? (family ++ "-[var(--" ++ name ++ ")]" ++ suffix) ∧
    ∀ declarations, resolve? (family ++ "-(--" ++ name ++ ")" ++ suffix) = some declarations ↔
      (suffix = "" ∧ assign? family none ("var(--" ++ name ++ ")") = some declarations) ∨
      ∃ properties modifier percentage, (family, properties) ∈ ColorFamily.table ∧ suffix = "/" ++ modifier ∧
        opacity? modifier = some percentage ∧
        declarations = Declaration.each properties (colorMix ("var(--" ++ name ++ ")") percentage) := by
  have hparentheses : family ++ "-(--" ++ name ++ ")" ++ suffix =
      family ++ "-" ++ (Spelling.parentheses.text name ++ suffix) := by
    rw [Spelling.text, show "-(--" = "-" ++ "(--" from rfl]
    simp only [String.append_assoc]
  have hbrackets : family ++ "-[var(--" ++ name ++ ")]" ++ suffix =
      family ++ "-" ++ (Spelling.brackets.text name ++ suffix) := by
    rw [Spelling.text, show "-[var(--" = "-" ++ ("[" ++ "var(--") from rfl, show ")]" = ")" ++ "]" from rfl]
    simp only [String.append_assoc]
  rw [hparentheses, hbrackets]
  refine ⟨Option.ext fun declarations => ?_, fun declarations => resolve?_spelling_iff hsquare hround hname _⟩
  rw [resolve?_spelling_iff hsquare hround hname, resolve?_spelling_iff hsquare hround hname]

/-- The color of the vertical borders, mixed to one half in either spelling. -/
theorem border_has_two_spellings :
    IsPlainName "a-b" ∧
    resolve? "border-x-(--a-b)/[0.5]" = resolve? "border-x-[var(--a-b)]/[0.5]" ∧
    resolve? "border-x-(--a-b)/[0.5]" =
      some [.property "border-inline-color" "color-mix(in oklab, var(--a-b) 50%, transparent)"] := by
  have hname : IsPlainName "a-b" := ⟨by decide, by simp⟩
  obtain ⟨hagree, hsets⟩ := spellings_agree (show '[' ∉ "border-x".toList by decide) (by decide) hname "/[0.5]"
  have hparentheses : "border-x" ++ "-(--" ++ "a-b" ++ ")" ++ "/[0.5]" = "border-x-(--a-b)/[0.5]" := by decide
  have hbrackets : "border-x" ++ "-[var(--" ++ "a-b" ++ ")]" ++ "/[0.5]" = "border-x-[var(--a-b)]/[0.5]" := by decide
  rw [hparentheses] at hagree hsets
  rw [hbrackets] at hagree
  refine ⟨hname, hagree, (hsets _).2 (.inr ⟨["border-inline-color"], "[0.5]", "50%", ?_, rfl, ?_, rfl⟩)⟩
  · decide
  · decide +kernel

end AtomicCss.Dynamic
