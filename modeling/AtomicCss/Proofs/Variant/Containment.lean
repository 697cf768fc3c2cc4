import AtomicCss.Proofs.Text.Authored
import AtomicCss.Proofs.Text.Exposed
import AtomicCss.Proofs.Theme.Containment
import AtomicCss.Proofs.Variant.Inversion

/-!
# Variants without delimiters are harmless

The text of a variant in brackets goes into the selector or into a query as it is written, and nothing
checks it for semicolons and braces. This module says what a variant *without* these characters comes to:
texts without them, under a checked theme.

## The architecture

* **`Variant.IsContained`** — the texts of an effect hold no delimiter.
* **`fixedTexts_pass`** — the tables of variants and the fixed parts of effects, in one sweep.
* **`breaksOut_of_condition?`** — conditions, which stand in several kinds of variants.
* **`isContained_of_marked?`**, **`isContained_of_authored?`** and their kin — one lemma for each way to
  read a variant; **`isContained_of_parse?`** puts them together.
* **`breaksOut_of_element`** — pseudo-elements have no delimiter in any case.
-/

namespace AtomicCss

open Text (breaksOut isAsciiClean)

namespace Variant

/-! ## Effects and tables -/

/-- The texts of an effect hold no delimiter. -/
def IsContained : Variant → Prop
  | element pseudo => breaksOut pseudo = false
  | media query => breaksOut query.query = false
  | container query => breaksOut query = false
  | condition text => breaksOut text = false
  | ancestor text => breaksOut text = false
  | children => True
  | template pieces => ∀ piece ∈ pieces, breaksOut piece = false
  | ignored => True

/-- The texts that an effect writes into a selector. -/
def selectorTexts : Variant → List String
  | condition text => [text]
  | ancestor text => [text]
  | template pieces => pieces
  | _ => []

/-- The texts that an effect writes into a selector leave no backslash open. -/
def IsComplete (effect : Variant) : Prop :=
  ∀ text ∈ effect.selectorTexts, Text.Complete text

/-- The texts that an effect writes into a selector leak nothing. -/
def IsTight (effect : Variant) : Prop :=
  ∀ text ∈ effect.selectorTexts, Text.Tight text

/-- The texts of the tables of variants, and the fixed parts of effects. -/
def fixedTexts : List String :=
  pseudoElements.map Prod.snd ++ mediaVariants.map Prod.snd ++ pseudoClasses.map Prod.snd ++
    ["@media (min-width: ", ")", "@media not (prefers-color-scheme: dark)",
     "@media not all and (min-width: ", "@container (min-width: ", "@container not (min-width: ",
     ":not(", ":has(", "[", "]", "aria", "data", "-", "=", "=\"", "\"]", "=\"true\"]", ".", "group",
     "peer", "\\/", " ", " ~ ", ":is(", " > *)"]

theorem fixedTexts_pass : fixedTexts.all isAsciiClean := by decide +kernel

theorem breaksOut_of_mem {s : String} (h : s ∈ fixedTexts) : breaksOut s = false :=
  Text.breaksOut_of_isAsciiClean (List.all_eq_true.1 fixedTexts_pass s h)

/-! ## Conditions -/

section Conditions

variable {variant : String}

theorem breaksOut_of_bracketed? {raw : String} (h : bracketed? variant = some raw)
    (hv : breaksOut variant = false) : breaksOut raw = false :=
  Text.breaksOut_of_enclosed? (Option.filter_eq_some_iff.1 h).1 hv

theorem breaksOut_of_decoded {value : String} (h : (bracketed? variant).map Text.decodeSpaces = some value)
    (hv : breaksOut variant = false) : breaksOut value = false := by
  obtain ⟨raw, hraw, rfl⟩ := Option.map_eq_some_iff.1 h
  rw [Text.breaksOut_decodeSpaces]
  exact breaksOut_of_bracketed? hraw hv

theorem breaksOut_of_attribute? {family raw text : String} (h : attribute? family raw = some text)
    (hmem : family ∈ fixedTexts) (hraw : breaksOut raw = false) : breaksOut text = false := by
  have hfamily := breaksOut_of_mem hmem
  have hopen : breaksOut "[" = false := breaksOut_of_mem (by simp [fixedTexts])
  have hdash : breaksOut "-" = false := breaksOut_of_mem (by simp [fixedTexts])
  have hequals : breaksOut "=" = false := breaksOut_of_mem (by simp [fixedTexts])
  have hquote : breaksOut "=\"" = false := breaksOut_of_mem (by simp [fixedTexts])
  have hclose : breaksOut "]" = false := breaksOut_of_mem (by simp [fixedTexts])
  have hquoted : breaksOut "\"]" = false := breaksOut_of_mem (by simp [fixedTexts])
  have hdecoded : breaksOut (Text.decodeSpaces raw) = false := by rwa [Text.breaksOut_decodeSpaces]
  unfold attribute? at h
  dsimp only at h
  split at h
  · rename_i key value hcut
    obtain ⟨hkey, hvalue⟩ := Text.breaksOut_of_cut? hcut hdecoded
    split at h
    · cases h
    · split at h
      · cases h
        -- a value that brings its quotes, and one that is put into quotes
        simp [hopen, hfamily, hdash, hkey, hequals, hvalue, hclose]
      · cases h
        simp [hopen, hfamily, hdash, hkey, hquote, hvalue, hquoted]
  · split at h
    · cases h
      simp [hopen, hfamily, hdash, hdecoded, hclose]
    · cases h

theorem breaksOut_of_attributeVariant? {family name text : String}
    (h : attributeVariant? family name = some text) (hfamily : family ∈ fixedTexts)
    (hname : breaksOut name = false) : breaksOut text = false := by
  unfold attributeVariant? at h
  split at h
  · rename_i raw hraw
    exact breaksOut_of_attribute? h hfamily (breaksOut_of_bracketed? hraw hname)
  · split at h
    · cases h
      have hopen : breaksOut "[" = false := breaksOut_of_mem (by simp [fixedTexts])
      have hdash : breaksOut "-" = false := breaksOut_of_mem (by simp [fixedTexts])
      have hclose : breaksOut "=\"true\"]" = false := breaksOut_of_mem (by simp [fixedTexts])
      simp [hopen, breaksOut_of_mem hfamily, hdash, hname, hclose]
    · cases h

/-- **A condition has no delimiter if its text has none.** -/
theorem breaksOut_of_condition? {cond : String} (h : condition? variant = some cond)
    (hv : breaksOut variant = false) : breaksOut cond = false := by
  unfold condition? at h
  split at h
  · rename_i pseudo hpseudo
    cases h
    have hmem := mem_map_snd_of_lookup hpseudo
    exact breaksOut_of_mem (by simp only [fixedTexts, List.mem_append, hmem, true_or, or_true])
  · split at h
    · rename_i name hname
      exact breaksOut_of_attributeVariant? h (by simp [fixedTexts]) (Text.breaksOut_of_after? hname hv)
    · split at h
      · rename_i name hname
        exact breaksOut_of_attributeVariant? h (by simp [fixedTexts]) (Text.breaksOut_of_after? hname hv)
      · exact breaksOut_of_decoded h hv

/-- The state and the name of a marked ancestor are parts of the variant. -/
theorem breaksOut_named (hv : breaksOut variant = false) :
    breaksOut (named variant).1 = false ∧ ∀ name ∈ (named variant).2, breaksOut name = false := by
  unfold named
  split
  · rename_i state name hcut
    obtain ⟨⟨left, right⟩, hcut', hsides⟩ := Option.map_eq_some_iff.1 hcut
    obtain ⟨rfl, rfl⟩ := Prod.mk.inj hsides
    have hparts := hv
    rw [breaksOut, (Text.cutAtLast_eq_some hcut').1, List.any_append, List.any_cons,
      -- the variant is the two sides and the slash between them
      Bool.or_eq_false_iff, Bool.or_eq_false_iff] at hparts
    split
    · refine ⟨by rw [Text.breaksOut_ofList, hparts.1], fun name hname => ?_⟩
      obtain rfl := Option.mem_some.1 hname
      rw [Text.breaksOut_ofList, hparts.2.2]
    · exact ⟨hv, by simp⟩
  · exact ⟨hv, by simp⟩

theorem breaksOut_escape {s : String} (hs : breaksOut s = false) : breaksOut (escape s) = false := by
  -- what is put in front of a character is a backslash, or a backslash and a digit of its code
  have hchar : ∀ c, Text.isDelimiter c = false → (escapeChar c).any Text.isDelimiter = false := by
    intro c hc
    unfold escapeChar
    split
    · simp only [List.any_cons, hc]
      decide
    · simp only [List.any_cons, hc]
      decide
  have hrest : ∀ cs : List Char, cs.any Text.isDelimiter = false →
      (cs.flatMap escapeChar).any Text.isDelimiter = false := by
    intro cs
    induction cs with
    | nil => exact fun _ => rfl
    | cons c cs ih =>
      intro hcs
      rw [List.any_cons, Bool.or_eq_false_iff] at hcs
      rw [List.flatMap_cons, List.any_append, hchar c hcs.1, ih hcs.2]
      rfl
  rw [escape, Text.breaksOut_ofList]
  rw [breaksOut] at hs
  cases hchars : s.toList with
  | nil => rfl
  | cons c cs =>
    rw [hchars, List.any_cons, Bool.or_eq_false_iff] at hs
    rw [escapeChars, List.any_append, hrest cs hs.2, Bool.or_false, escapeFirst]
    split
    · simp only [List.any_cons, hs.1]
      decide
    · exact hchar c hs.1

end Conditions

/-! ## Whole variants -/

section Effects

variable {theme : Theme} {variant : String} {effect : Variant}

/-- A marked ancestor or sibling is made of its mark, its name and its condition. -/
theorem isContained_of_marked? {mark combinator : String} (hmark : mark ∈ fixedTexts)
    (hcombinator : combinator ∈ fixedTexts) (h : marked? mark combinator variant = some effect)
    (hv : breaksOut variant = false) : effect.IsContained := by
  have hdot : breaksOut "." = false := breaksOut_of_mem (by simp [fixedTexts])
  have hslash : breaksOut "\\/" = false := breaksOut_of_mem (by simp [fixedTexts])
  have hmark := breaksOut_of_mem hmark
  have hcombinator := breaksOut_of_mem hcombinator
  have hparts := breaksOut_named hv
  unfold marked? at h
  generalize named variant = parts at h hparts
  obtain ⟨state, name⟩ := parts
  obtain ⟨cond, hcond, rfl⟩ := Option.map_eq_some_iff.1 h
  have hclean := breaksOut_of_condition? hcond hparts.1
  cases name with
  | some name =>
    have hescaped := breaksOut_escape (hparts.2 name rfl)
    simp [IsContained, hdot, hmark, hslash, hescaped, hclean, hcombinator]
  | none => simp [IsContained, hdot, hmark, hclean, hcombinator]

/-- Text in brackets is a query or a template as it is written. -/
theorem isContained_of_authored? {raw : String} (h : authored? raw = some effect)
    (hraw : breaksOut raw = false) : effect.IsContained := by
  have hdecoded : breaksOut (Text.decodeSpaces raw) = false := by rwa [Text.breaksOut_decodeSpaces]
  unfold authored? at h
  dsimp only at h
  split at h
  · cases h
    exact hdecoded
  · split at h
    · cases h
      exact fun piece hpiece => Text.breaksOut_of_mem_pieces hpiece hdecoded
    · cases h

theorem isContained_of_has? (h : has? variant = some effect) (hv : breaksOut variant = false) :
    effect.IsContained := by
  have hopen : breaksOut ":has(" = false := breaksOut_of_mem (by simp [fixedTexts])
  have hclose : breaksOut ")" = false := breaksOut_of_mem (by simp [fixedTexts])
  obtain ⟨cond, hcond, rfl⟩ := Option.map_eq_some_iff.1 h
  have hclean : breaksOut cond = false := by
    rcases Option.or_eq_some_iff.1 hcond with hauthored | ⟨-, hcondition⟩
    · exact breaksOut_of_decoded hauthored hv
    · exact breaksOut_of_condition? hcondition hv
  simp [IsContained, hopen, hclean, hclose]

theorem isContained_of_not? (h : not? theme variant = some effect) (hv : breaksOut variant = false) :
    effect.IsContained := by
  have hdark : breaksOut "@media not (prefers-color-scheme: dark)" = false :=
    breaksOut_of_mem (by simp [fixedTexts])
  have hopen : breaksOut ":not(" = false := breaksOut_of_mem (by simp [fixedTexts])
  have hclose : breaksOut ")" = false := breaksOut_of_mem (by simp [fixedTexts])
  unfold not? at h
  split at h
  · cases h
    exact hdark
  · split at h
    · cases h
      trivial
    · obtain ⟨cond, hcond, rfl⟩ := Option.map_eq_some_iff.1 h
      have hclean := breaksOut_of_condition? hcond hv
      simp [IsContained, hopen, hclean, hclose]

theorem isContained_of_max? (hvalid : theme.validate = .ok ()) (h : max? theme variant = some effect)
    (hv : breaksOut variant = false) : effect.IsContained := by
  have hopen : breaksOut "@media not all and (min-width: " = false := breaksOut_of_mem (by simp [fixedTexts])
  have hclose : breaksOut ")" = false := breaksOut_of_mem (by simp [fixedTexts])
  obtain ⟨width, hwidth, rfl⟩ := Option.map_eq_some_iff.1 h
  have hclean : breaksOut width = false := by
    rcases Option.or_eq_some_iff.1 hwidth with hauthored | ⟨-, hbreakpoint⟩
    · exact breaksOut_of_decoded hauthored hv
    · exact Theme.breaksOut_of_breakpoint? hvalid hbreakpoint
  simp [IsContained, unnamedMedia, hopen, hclean, hclose]

theorem breaksOut_minWidthQuery {width : String} (h : breaksOut width = false) :
    breaksOut (minWidthQuery width) = false := by
  have hopen : breaksOut "@media (min-width: " = false := breaksOut_of_mem (by simp [fixedTexts])
  have hclose : breaksOut ")" = false := breaksOut_of_mem (by simp [fixedTexts])
  unfold minWidthQuery
  simp [hopen, h, hclose]

theorem isContained_of_min? (h : min? variant = some effect) (hv : breaksOut variant = false) :
    effect.IsContained := by
  obtain ⟨raw, hraw, rfl⟩ := Option.map_eq_some_iff.1 h
  refine breaksOut_minWidthQuery ?_
  rw [Text.breaksOut_decodeSpaces]
  exact breaksOut_of_bracketed? hraw hv

/-- The width of a container is authored or the theme's. -/
theorem breaksOut_of_containerQuery? (hvalid : theme.validate = .ok ()) {query : String}
    (h : containerQuery? theme variant = some query) (hv : breaksOut variant = false) :
    breaksOut query = false := by
  have hopen : breaksOut "@container (min-width: " = false := breaksOut_of_mem (by simp [fixedTexts])
  have hnot : breaksOut "@container not (min-width: " = false := breaksOut_of_mem (by simp [fixedTexts])
  have hclose : breaksOut ")" = false := breaksOut_of_mem (by simp [fixedTexts])
  unfold containerQuery? at h
  split at h
  · rename_i raw hraw
    cases h
    simp [hopen, breaksOut_of_bracketed? hraw hv, hclose]
  · split at h
    · obtain ⟨width, hwidth, rfl⟩ := Option.map_eq_some_iff.1 h
      simp [hnot, Theme.breaksOut_of_container? hvalid hwidth, hclose]
    · obtain ⟨width, hwidth, rfl⟩ := Option.map_eq_some_iff.1 h
      simp [hopen, Theme.breaksOut_of_container? hvalid hwidth, hclose]

/-- A stem leaves a rest that has no delimiter either. -/
theorem isContained_of_stemmed? (hvalid : theme.validate = .ok ())
    (h : stemmed? theme variant = some effect) (hv : breaksOut variant = false) :
    effect.IsContained := by
  rcases stemmed?_cases h with ⟨mark, combinator, rest, hmarks, hrest, hmarked⟩ | ⟨rest, hrest, hhas⟩ |
    ⟨rest, hrest, hnot⟩ | ⟨rest, hrest, hmax⟩ | ⟨rest, hrest, hmin⟩ | ⟨size, query, hsize, hquery, rfl⟩ |
    ⟨width, hwidth, rfl⟩
  · have hclean := Text.breaksOut_of_after? hrest hv
    -- `group-` and `peer-` differ in the mark and the combinator only
    rcases hmarks with ⟨rfl, rfl⟩ | ⟨rfl, rfl⟩
    · exact isContained_of_marked? (by simp [fixedTexts]) (by simp [fixedTexts]) hmarked hclean
    · exact isContained_of_marked? (by simp [fixedTexts]) (by simp [fixedTexts]) hmarked hclean
  · exact isContained_of_has? hhas (Text.breaksOut_of_after? hrest hv)
  · exact isContained_of_not? hnot (Text.breaksOut_of_after? hrest hv)
  · exact isContained_of_max? hvalid hmax (Text.breaksOut_of_after? hrest hv)
  · exact isContained_of_min? hmin (Text.breaksOut_of_after? hrest hv)
  · exact breaksOut_of_containerQuery? hvalid hquery (Text.breaksOut_of_after? hsize hv)
  · exact breaksOut_minWidthQuery (Theme.breaksOut_of_breakpoint? hvalid hwidth)

/-- **A variant without delimiters has an effect without delimiters**, under a checked theme. -/
theorem isContained_of_parse? (hvalid : theme.validate = .ok ()) (h : parse? theme variant = some effect)
    (hv : breaksOut variant = false) : effect.IsContained := by
  rcases parse?_cases h with ⟨pseudo, hpseudo, rfl⟩ | ⟨query, hquery, rfl⟩ | ⟨cond, hcond, rfl⟩ | rfl |
    ⟨raw, hraw, hauthored⟩ | hstemmed
  · have hmem := mem_map_snd_of_lookup hpseudo
    exact breaksOut_of_mem (by simp only [fixedTexts, List.mem_append, hmem, true_or])
  · have hmem := mem_map_snd_of_lookup hquery
    exact breaksOut_of_mem (by simp only [fixedTexts, List.mem_append, hmem, true_or, or_true])
  · exact breaksOut_of_condition? hcond hv
  · trivial
  · exact isContained_of_authored? hauthored (breaksOut_of_bracketed? hraw hv)
  · exact isContained_of_stemmed? hvalid hstemmed hv

/-- Pseudo-elements come from a table, whatever the variants are. -/
theorem breaksOut_of_element {pseudo : String} (h : parse? theme variant = some (element pseudo)) :
    breaksOut pseudo = false := by
  have hmem := mem_map_snd_of_lookup (origin_of_parse? h)
  exact breaksOut_of_mem (by simp only [fixedTexts, List.mem_append, hmem, true_or])

/-- The selector so far has a place in every template. -/
theorem two_le_length_of_template {pieces : List String}
    (h : parse? theme variant = some (template pieces)) : 2 ≤ pieces.length := by
  obtain ⟨s, hplace, rfl⟩ := origin_of_parse? h
  exact Text.two_le_length_pieces hplace

end Effects

end Variant

end AtomicCss
