import AtomicCss.Proofs.Dynamic.Composition
import AtomicCss.Proofs.Text.Authored

/-!
# A type hint says what the value shows anyway

A family that takes a color or a width looks at the value to tell which of the two it is, and a type hint in front of
the value says it outright. Three tables are involved, that of the color families, that of their widths and that of the
hints. This module says that they agree: a hint that is right changes nothing, for every value in brackets.

The one thing that could go wrong is that the value has a colon of its own. A value that looks like a color begins with
a name that no colon follows, so it is never taken for a hint and a value. Of a value that is no color this has to be
asked.

## The architecture

* **`splitHint_of_isColorLike`** — a value that looks like a color has no type hint in front.
* **`resolve?_hinted`**, **`resolve?_sniffed`** — what a utility sets with a hint, and what it sets without one.
* **`right_hints_change_nothing`** — the two agree.
-/

namespace AtomicCss

/-! ## Texts that keep their beginning -/

namespace Text

/-- A text that begins with ink loses no blanks at its beginning. -/
theorem trimStart_append {s : String} (h : ∃ c ∈ s.toList.head?, isBlank c = false) (t : String) :
    trimStart (s ++ t) = s ++ t := by
  obtain ⟨c, hhead, hc⟩ := h
  obtain ⟨cs, hcs⟩ := List.head?_eq_some_iff.1 hhead
  have hdrop : (c :: (cs ++ t.toList)).dropWhile isBlank = c :: (cs ++ t.toList) :=
    List.dropWhile_cons_of_neg (by simp [hc])
  apply String.toList_injective
  rw [trimStart, String.toList_ofList, String.toList_append, hcs, List.cons_append, hdrop]

/-- The blanks at the end are those behind the last ink. -/
theorem trimEnd_append {s : String} (h : ∃ c ∈ s.toList.getLast?, isBlank c = false) (t : String) :
    trimEnd (s ++ t) = s ++ trimEnd t := by
  obtain ⟨c, hlast, hc⟩ := h
  obtain ⟨cs, hcs⟩ := List.getLast?_eq_some_iff.1 hlast
  have hdrop : (c :: cs.reverse).dropWhile isBlank = c :: cs.reverse := List.dropWhile_cons_of_neg (by simp [hc])
  apply String.toList_injective
  rw [trimEnd, trimEnd, String.toList_append, String.toList_append, String.toList_ofList, String.toList_ofList, hcs,
    List.reverse_append, List.dropWhile_append, List.reverse_append, List.reverse_singleton, List.singleton_append,
    hdrop]
  split
  · rename_i hempty
    rw [List.isEmpty_iff] at hempty
    simp [hempty]
  · simp

theorem asciiLower_append (s t : String) : asciiLower (s ++ t) = asciiLower s ++ asciiLower t := by
  simp [asciiLower]

end Text

namespace Dynamic

open Text (isIdentifier isNameChar asciiLower trim)

variable {family hint raw value : String} {properties : List String} {declarations : List Declaration}

/-! ## Colors have no hint -/

theorem colorFunctions_pass : (colorFunctions.all fun function =>
    (Text.before? "(" function).any isIdentifier) = true := by
  decide

theorem colorWords_pass : colorWords.all isIdentifier = true := by
  decide

theorem behindName_of_function {s name : String} (hname : isIdentifier name = true)
    (h : Text.startsWith (name ++ "(") s = true) : (Text.behindName s).head? = some '(' := by
  obtain ⟨rest, rfl⟩ := Text.startsWith_iff.1 h
  have hchars : (name ++ "(" ++ rest).toList = name.toList ++ '(' :: rest.toList := by simp
  rw [Text.behindName_of_eq hchars (Text.all_isNameChar_of_isIdentifier hname) rfl, List.head?_cons]

/-- **A color begins with a name, which no colon follows**: the name of a function, of a color, or none at all. -/
theorem head?_behindName_of_isColorLike (h : isColorLike value = true) :
    (Text.behindName (asciiLower (trim value))).head? ≠ some ':' := by
  rw [isColorLike] at h
  generalize asciiLower (trim value) = lower at h ⊢
  simp only [Bool.or_eq_true, List.any_eq_true, List.contains_iff_mem] at h
  obtain ((hhex | htheme) | ⟨function, hfunction, hstart⟩) | hword := h
  · unfold isHexColor at hhex
    split at hhex
    · rename_i digits hdigits
      have hchars : lower.toList = [] ++ '#' :: digits := hdigits
      rw [Text.behindName_of_eq hchars (by simp) rfl]
      simp
    · cases hhex
  · obtain ⟨rest, rfl⟩ := Text.startsWith_iff.1 htheme
    have hstart : Text.startsWith ("var" ++ "(") ("var(--color-" ++ rest) = true :=
      Text.startsWith_iff.2 ⟨"--color-" ++ rest, by rw [← String.append_assoc]; rfl⟩
    rw [behindName_of_function (by decide) hstart]
    simp
  · have hpass := List.all_eq_true.1 colorFunctions_pass _ hfunction
    obtain ⟨name, hbefore, hname⟩ := (Option.any_eq_true ..).1 hpass
    obtain rfl := Text.eq_append_of_before? hbefore
    rw [behindName_of_function hname hstart]
    simp
  · have hname := List.all_eq_true.1 colorWords_pass _ hword
    rw [Text.behindName, List.dropWhile_eq_nil_iff.2 (Text.all_isNameChar_of_isIdentifier hname)]
    simp

theorem hints_lower : (hints.all fun hint =>
    asciiLower hint == hint && hint.toList.head?.any fun c => !Text.isBlank c) = true := by
  decide

/-- Whatever is done to a value to compare it with colors, a hint in front of it stays. -/
theorem behindName_of_hint (h : hint ∈ hints) (rest : String) :
    (Text.behindName (asciiLower (trim (hint ++ ":" ++ rest)))).head? = some ':' := by
  have hpass := List.all_eq_true.1 hints_lower _ h
  rw [Bool.and_eq_true, beq_iff_eq] at hpass
  obtain ⟨hlower, hink⟩ := hpass
  obtain ⟨c, hhead, hc⟩ := (Option.any_eq_true ..).1 hink
  rw [Bool.not_eq_true'] at hc
  have hhead : ∃ c ∈ (hint ++ ":").toList.head?, Text.isBlank c = false :=
    ⟨c, by rw [String.toList_append, List.head?_append, hhead]; rfl, hc⟩
  have hlast : ∃ c ∈ (hint ++ ":").toList.getLast?, Text.isBlank c = false := ⟨':', by simp, by decide⟩
  have hcolon : asciiLower ":" = ":" := by decide
  rw [trim, Text.trimStart_append hhead, Text.trimEnd_append hlast, Text.asciiLower_append, Text.asciiLower_append,
    hlower, hcolon]
  generalize asciiLower (Text.trimEnd rest) = tail
  have hchars : (hint ++ ":" ++ tail).toList = hint.toList ++ ':' :: tail.toList := by simp
  rw [Text.behindName_of_eq hchars (Text.all_isNameChar_of_isIdentifier (isIdentifier_of_mem_hints h)) rfl,
    List.head?_cons]

/-- A hint is meant as it stands, so the value begins with it as well. -/
theorem meaning_append (h : hint ∈ hints) (rest : String) :
    ∃ tail, meaning (hint ++ ":" ++ rest) = hint ++ ":" ++ tail := by
  obtain ⟨hunderscore, hbackslash, -⟩ := not_mem_of_mem_hints h
  unfold meaning
  split
  · exact ⟨rest, rfl⟩
  · exact ⟨_, Text.decodeSpaces_append (by simp [hunderscore]) (by simp [hbackslash]) rest⟩

/-- **A value that looks like a color has no type hint in front.** -/
theorem splitHint_of_isColorLike (h : arbitrary? raw = some value) (hcolor : isColorLike value = true) :
    splitHint raw = (none, raw) := by
  rcases splitHint_cases raw with hsplit | ⟨hint, rest, hmem, rfl, -⟩
  · exact hsplit
  · obtain ⟨-, -, -, rfl⟩ := arbitrary?_eq_some_iff.1 h
    obtain ⟨tail, htail⟩ := meaning_append hmem rest
    rw [htail] at hcolor
    exact absurd (behindName_of_hint hmem tail) (head?_behindName_of_isColorLike hcolor)

/-! ## With a hint and without -/

/-- **A family, a hint and a value in brackets.** -/
theorem resolve?_hinted {template : Template} (h : typedTemplates.lookup (family, hint) = some template)
    (hvalue : arbitrary? raw = some value) :
    resolve? (family ++ "-[" ++ (hint ++ ":" ++ raw) ++ "]") = some (template.fill value) := by
  have htyped : typed? family hint value = some (template.fill value) := by rw [typed?, h, Option.map_some]
  obtain ⟨hfamily, hhint⟩ := mem_knownFamilies_of_typed? htyped
  exact resolve?_bracketed (isIdentifier_of_mem_knownFamilies hfamily) (splitHint_append hhint raw) hvalue htyped

/-- **A family that looks at the value, and a value in brackets.** -/
theorem resolve?_sniffed (h : sniff? family value = some declarations) (hsplit : (splitHint raw).1 = none)
    (hvalue : arbitrary? raw = some value) : resolve? (family ++ "-[" ++ raw ++ "]") = some declarations := by
  have hknown := mem_knownFamilies_of_sniff? h
  have hassign : assign? family none value = some declarations := by
    rw [assign?, unsigned?_of_mem_knownFamilies hknown]
    show plain? family value = some declarations
    rw [plain?, h, Option.some_or]
  exact resolve?_bracketed (isIdentifier_of_mem_knownFamilies hknown) (splitHint_of_fst hsplit) hvalue hassign

/-- A family of colors sets its colors to one. -/
theorem sniff?_of_isColorLike (h : ColorFamily.table.lookup family = some properties)
    (hcolor : isColorLike value = true) : sniff? family value = some (Declaration.each properties value) := by
  have hvalue : isColorValue value = true := by rw [isColorValue, hcolor, Bool.true_or]
  unfold sniff?
  split
  · rename_i hbackground
    subst hbackground
    obtain rfl : ["background-color"] = properties := Option.some.inj (h.symm.trans (by decide)).symm
    rw [backgroundProperty, if_pos hvalue]
    rfl
  · split
    · rename_i hfont
      subst hfont
      rw [show ColorFamily.table.lookup "font" = none by decide] at h
      cases h
    · rw [h, Option.map_some, sniffColor, if_pos hvalue]

/-- A family of colors sets its width to anything else. -/
theorem sniff?_of_width {template : Template} (hbackground : family ≠ "bg") (hfont : family ≠ "font")
    (hcolors : ColorFamily.table.lookup family = some properties) (hwidth : widths.lookup family = some template)
    (hvalue : isColorValue value = false) : sniff? family value = some (template.fill value) := by
  have hno : ¬ isColorValue value = true := by simp [hvalue]
  rw [sniff?, if_neg hbackground, if_neg hfont, hcolors, Option.map_some, sniffColor, if_neg hno, hwidth]

/-! ## The tables agree -/

/-- The families that know the hint of a color. -/
def colorHinted : List String :=
  ["bg", "text", "border", "outline", "ring", "fill", "stroke", "decoration"]

/-- The families that know the hint of a length and take a color as well. For `bg` the two are different things: a
length is the size of the background, and a value that is no color its position. -/
def lengthHinted : List String :=
  ["text", "border", "outline", "decoration", "stroke", "ring"]

theorem colorHinted_pass : (colorHinted.all fun family => (ColorFamily.table.lookup family).isSome &&
    typedTemplates.lookup (family, "color") == (ColorFamily.table.lookup family).map Template.each) = true := by
  decide

theorem lengthHinted_pass : (lengthHinted.all fun family => family != "bg" && family != "font" &&
    (ColorFamily.table.lookup family).isSome && (widths.lookup family).isSome &&
      typedTemplates.lookup (family, "length") == widths.lookup family) = true := by
  decide

/-- **A hint that is right changes nothing.** A value that looks like a color may be called one, and a value that does
not, and refers to nothing, may be called a length: with the hint and without it the family sets the same, what the
table of hints says. A color needs no condition on its text, all other values must not have a hint of their own. -/
theorem right_hints_change_nothing (h : arbitrary? raw = some value) :
    (isColorLike value = true → ∀ family ∈ colorHinted, ∃ template,
      typedTemplates.lookup (family, "color") = some template ∧
        resolve? (family ++ "-[color:" ++ raw ++ "]") = some (template.fill value) ∧
          resolve? (family ++ "-[" ++ raw ++ "]") = some (template.fill value)) ∧
    (isColorLike value = false → Text.startsWith "var(" value = false → (splitHint raw).1 = none →
      ∀ family ∈ lengthHinted, ∃ template,
        typedTemplates.lookup (family, "length") = some template ∧
          resolve? (family ++ "-[length:" ++ raw ++ "]") = some (template.fill value) ∧
            resolve? (family ++ "-[" ++ raw ++ "]") = some (template.fill value)) := by
  have hhinted (family hint : String) : family ++ ("-[" ++ hint ++ ":") ++ raw ++ "]" =
      family ++ "-[" ++ (hint ++ ":" ++ raw) ++ "]" := by
    simp only [String.append_assoc]
  constructor
  · intro hcolor family hmem
    have hpass := List.all_eq_true.1 colorHinted_pass _ hmem
    rw [Bool.and_eq_true, beq_iff_eq] at hpass
    obtain ⟨hsome, htyped⟩ := hpass
    obtain ⟨properties, hlookup⟩ := Option.isSome_iff_exists.1 hsome
    rw [hlookup, Option.map_some] at htyped
    refine ⟨Template.each properties, htyped, ?_, ?_⟩
    · rw [show "-[color:" = "-[" ++ "color" ++ ":" from rfl, hhinted]
      exact resolve?_hinted htyped h
    · rw [← each_eq_fill]
      exact resolve?_sniffed (sniff?_of_isColorLike hlookup hcolor) (by rw [splitHint_of_isColorLike h hcolor]) h
  · intro hcolor hreference hnone family hmem
    have hpass := List.all_eq_true.1 lengthHinted_pass _ hmem
    simp only [Bool.and_eq_true, bne_iff_ne, beq_iff_eq] at hpass
    obtain ⟨⟨⟨⟨hbackground, hfont⟩, hcolors⟩, hwidth⟩, htyped⟩ := hpass
    obtain ⟨properties, hlookup⟩ := Option.isSome_iff_exists.1 hcolors
    obtain ⟨template, htemplate⟩ := Option.isSome_iff_exists.1 hwidth
    have hvalue : isColorValue value = false := by rw [isColorValue, hcolor, hreference, Bool.or_false]
    refine ⟨template, htyped.trans htemplate, ?_, ?_⟩
    · rw [show "-[length:" = "-[" ++ "length" ++ ":" from rfl, hhinted]
      exact resolve?_hinted (htyped.trans htemplate) h
    · exact resolve?_sniffed (sniff?_of_width hbackground hfont hlookup htemplate hvalue) hnone h

/-- The fill of a shape may be called a color, and the width of a border a length. -/
theorem fill_and_border_need_no_hint :
    resolve? "fill-[color:RED_]" = resolve? "fill-[RED_]" ∧
      resolve? "fill-[RED_]" = some [.property "fill" "RED "] ∧
    resolve? "border-[length:calc(1px_+_2px)]" = resolve? "border-[calc(1px_+_2px)]" ∧
      resolve? "border-[calc(1px_+_2px)]" = some [.property "border-width" "calc(1px + 2px)"] := by
  have hred : arbitrary? "RED_" = some "RED " := by decide +kernel
  have hsum : arbitrary? "calc(1px_+_2px)" = some "calc(1px + 2px)" := by decide +kernel
  obtain ⟨fill, hfill, hhinted, hplain⟩ :=
    (right_hints_change_nothing hred).1 (by decide +kernel) "fill" (by decide)
  obtain ⟨width, hwidth, hhinted', hplain'⟩ :=
    (right_hints_change_nothing hsum).2 (by decide +kernel) (by decide +kernel) (by decide +kernel) "border" (by decide)
  obtain rfl : [Slot.whole "fill"] = fill := Option.some.inj ((by decide : _ = _).symm.trans hfill)
  obtain rfl : [Slot.whole "border-width"] = width := Option.some.inj ((by decide : _ = _).symm.trans hwidth)
  have hset (property value : String) : Template.fill [Slot.whole property] value = [.property property value] := by
    rw [Template.fill, List.map_cons, List.map_nil, Slot.fill_whole]
  exact ⟨hhinted.trans hplain.symm, hplain.trans (congrArg some (hset ..)), hhinted'.trans hplain'.symm,
    hplain'.trans (congrArg some (hset ..))⟩

end Dynamic

end AtomicCss
