import AtomicCss.Proofs.Text.Delimiter
import AtomicCss.Selector

/-!
# How a variant can be read

The names of variants are tried in a fixed order, and the effect tells which of them it was. Proofs about
variants begin with these case distinctions, so that none of them has to walk through the order again.

* **`Variant.parse?_cases`** — the six ways to read a variant.
* **`Variant.stemmed?_cases`** — the eight ways to read a variant with a stem.
* **`Variant.authored?_cases`** — the two ways to read text in brackets.
* **`Variant.origin_of_parse?`** — what an effect tells of its variant.
* **`Variant.condition?_of_attribute`** — what stands behind `aria-` and `data-`.
* **`Variant.parse?_eq_stemmed?`** — no table and no bracket gets hold of a name with a stem of its own.
* **`Variant.parse?_of_mem_readers`** — what stands behind each stem; **`Variant.parse?_of_dash`** — and behind a dash.
* **`Variant.parse?_eq_ignored_iff`** — the variants that are ignored.
-/

namespace AtomicCss.Variant

variable {theme : Theme} {variant : String} {effect : Variant}

/-- A variant is a pseudo-element, a media query, a condition, the children, text in brackets, or it has a
stem. -/
theorem parse?_cases (h : parse? theme variant = some effect) :
    (∃ pseudo, pseudoElements.lookup variant = some pseudo ∧ effect = element pseudo) ∨
    (∃ query, mediaVariants.lookup variant = some query ∧
      effect = media ⟨query, mediaPriority variant⟩) ∨
    (∃ cond, condition? variant = some cond ∧ effect = condition cond) ∨
    effect = children ∨
    (∃ raw, bracketed? variant = some raw ∧ authored? raw = some effect) ∨
    stemmed? theme variant = some effect := by
  unfold parse? at h
  split at h
  · rename_i pseudo hpseudo
    cases h
    exact .inl ⟨pseudo, hpseudo, rfl⟩
  · split at h
    · rename_i query hquery
      cases h
      exact .inr (.inl ⟨query, hquery, rfl⟩)
    · split at h
      · rename_i cond hcond
        cases h
        exact .inr (.inr (.inl ⟨cond, (Option.filter_eq_some_iff.1 hcond).1, rfl⟩))
      · split at h
        · cases h
          exact .inr (.inr (.inr (.inl rfl)))
        · split at h
          · rename_i raw hraw
            exact .inr (.inr (.inr (.inr (.inl ⟨raw, hraw, h⟩))))
          · exact .inr (.inr (.inr (.inr (.inr h))))

/-- A variant with a stem is about a marked ancestor or sibling, what is inside, what does not hold, a width
or a container, or else it is a breakpoint. -/
theorem stemmed?_cases (h : stemmed? theme variant = some effect) :
    (∃ mark combinator rest, (mark = "group" ∧ combinator = " " ∨ mark = "peer" ∧ combinator = " ~ ") ∧
      Text.after? (mark ++ "-") variant = some rest ∧ marked? mark combinator rest = some effect) ∨
    (∃ rest, Text.after? "has-" variant = some rest ∧ has? rest = some effect) ∨
    (∃ rest, Text.after? "not-" variant = some rest ∧ not? theme rest = some effect) ∨
    (∃ rest, Text.after? "max-" variant = some rest ∧ max? theme rest = some effect) ∨
    (∃ rest, Text.after? "min-" variant = some rest ∧ min? rest = some effect) ∨
    (∃ size query, Text.after? "@" variant = some size ∧ containerQuery? theme size = some query ∧
      effect = container query) ∨
    (∃ width, theme.breakpoint? variant = some width ∧
      effect = media ⟨minWidthQuery width, mediaPriority variant⟩) := by
  unfold stemmed? at h
  split at h
  · rename_i rest hrest
    exact .inl ⟨"group", " ", rest, .inl ⟨rfl, rfl⟩, hrest, h⟩
  · split at h
    · rename_i rest hrest
      exact .inl ⟨"peer", " ~ ", rest, .inr ⟨rfl, rfl⟩, hrest, h⟩
    · split at h
      · rename_i rest hrest
        exact .inr (.inl ⟨rest, hrest, h⟩)
      · split at h
        · rename_i rest hrest
          exact .inr (.inr (.inl ⟨rest, hrest, h⟩))
        · split at h
          · rename_i rest hrest
            exact .inr (.inr (.inr (.inl ⟨rest, hrest, h⟩)))
          · split at h
            · rename_i rest hrest
              exact .inr (.inr (.inr (.inr (.inl ⟨rest, hrest, h⟩))))
            · split at h
              · rename_i size hsize
                obtain ⟨query, hquery, rfl⟩ := Option.map_eq_some_iff.1 h
                exact .inr (.inr (.inr (.inr (.inr (.inl ⟨size, query, hsize, hquery, rfl⟩)))))
              · obtain ⟨width, hwidth, rfl⟩ := Option.map_eq_some_iff.1 h
                exact .inr (.inr (.inr (.inr (.inr (.inr ⟨width, hwidth, rfl⟩)))))

/-- Authored text is a query or has a place for the selector. -/
theorem authored?_cases {raw : String} (h : authored? raw = some effect) :
    (∃ query, effect = unnamedMedia query) ∨
    ∃ s, Text.contains "&" s ∧ effect = template (Text.pieces '&' s) := by
  unfold authored? at h
  dsimp only at h
  split at h
  · cases h
    exact .inl ⟨_, rfl⟩
  · split at h
    · rename_i hcontains
      cases h
      exact .inr ⟨_, hcontains, rfl⟩
    · cases h

/-- What an effect tells of the variant that has it. -/
def Origin (variant : String) : Variant → Prop
  | element pseudo => pseudoElements.lookup variant = some pseudo
  | template pieces => ∃ s, Text.contains "&" s ∧ pieces = Text.pieces '&' s
  | ignored => ∃ rest, Text.after? "not-" variant = some rest
  | media _ | container _ | condition _ | ancestor _ | children => True

/-- Behind a stem there are no pseudo-elements and no templates, and only one stem leads to what is ignored. -/
theorem origin_of_stemmed? (h : stemmed? theme variant = some effect) : effect.Origin variant := by
  rcases stemmed?_cases h with ⟨mark, combinator, rest, -, -, hmarked⟩ | ⟨rest, -, hhas⟩ |
    ⟨rest, hrest, hnot⟩ | ⟨rest, -, hmax⟩ | ⟨rest, -, hmin⟩ | ⟨size, query, -, -, rfl⟩ | ⟨width, -, rfl⟩
  · obtain ⟨cond, -, heffect⟩ := Option.map_eq_some_iff.1 hmarked
    split at heffect <;> subst heffect <;> exact trivial
  · obtain ⟨cond, -, rfl⟩ := Option.map_eq_some_iff.1 hhas
    exact trivial
  · unfold not? at hnot
    split at hnot
    · cases hnot
      exact trivial
    · split at hnot
      · cases hnot
        exact ⟨rest, hrest⟩
      · obtain ⟨cond, -, rfl⟩ := Option.map_eq_some_iff.1 hnot
        exact trivial
  · obtain ⟨width, -, rfl⟩ := Option.map_eq_some_iff.1 hmax
    exact trivial
  · obtain ⟨raw, -, rfl⟩ := Option.map_eq_some_iff.1 hmin
    exact trivial
  · exact trivial
  · exact trivial

/-- **An effect tells where it comes from**: pseudo-elements from their table, templates from authored text
with places in it, and what is ignored from behind `not-`. -/
theorem origin_of_parse? (h : parse? theme variant = some effect) : effect.Origin variant := by
  rcases parse?_cases h with ⟨pseudo, hpseudo, rfl⟩ | ⟨query, -, rfl⟩ | ⟨cond, -, rfl⟩ | rfl |
    ⟨raw, -, hauthored⟩ | hstemmed
  · exact hpseudo
  · exact trivial
  · exact trivial
  · exact trivial
  · rcases authored?_cases hauthored with ⟨query, rfl⟩ | ⟨s, hplace, rfl⟩
    · exact trivial
    · exact ⟨s, hplace, rfl⟩
  · exact origin_of_stemmed? hstemmed

/-! ## Ignored variants -/

/-- A media query or a breakpoint behind `not-`. The dark color scheme has a query of its own; the others
cannot be negated. -/
def isNegatedMedia (theme : Theme) (variant : String) : Bool :=
  (Text.after? "not-" variant).any fun rest =>
    rest != "dark" && ((mediaVariants.lookup rest).isSome || (theme.breakpoint? rest).isSome)

/-- A name with some stem is in no table in which no name has it. -/
theorem lookup_eq_none_of_after? {stem rest : String} (h : Text.after? stem variant = some rest) :
    ∀ {table : List (String × String)}, (∀ entry ∈ table, Text.after? stem entry.1 = none) →
      table.lookup variant = none := by
  intro table
  induction table with
  | nil => exact fun _ => rfl
  | cons entry table ih =>
    intro htable
    obtain ⟨hfirst, hrest⟩ := List.forall_mem_cons.1 htable
    have hne : (variant == entry.1) = false := by
      rw [beq_eq_false_iff_ne]
      rintro rfl
      rw [h] at hfirst
      cases hfirst
    rw [List.lookup_cons, hne]
    exact ih hrest

/-- **What stands behind `aria-` or `data-` is an attribute**: no pseudo-class has such a name. -/
theorem condition?_of_attribute {family : String} (hfamily : family ∈ ["aria", "data"]) (name : String) :
    condition? (family ++ "-" ++ name) = attributeVariant? family name := by
  have h : Text.after? (family ++ "-") (family ++ "-" ++ name) = some name := Text.after?_eq_some_iff.2 rfl
  simp only [List.mem_cons, List.not_mem_nil, or_false] at hfamily
  rcases hfamily with rfl | rfl
  · have haria : Text.after? "aria-" ("aria" ++ "-" ++ name) = some name := h
    rw [condition?, lookup_eq_none_of_after? h (by decide), haria]
  · have hdata : Text.after? "data-" ("data" ++ "-" ++ name) = some name := h
    rw [condition?, lookup_eq_none_of_after? h (by decide), Text.after?_eq_none_of_apart h (by decide), hdata]

/-- The name of an attribute is no pseudo-element and no media query, and no bracket opens it. -/
theorem attribute_apart {family : String} (hfamily : family ∈ ["aria", "data"]) (name : String) :
    pseudoElements.lookup (family ++ "-" ++ name) = none ∧ mediaVariants.lookup (family ++ "-" ++ name) = none ∧
      Text.after? "[" (family ++ "-" ++ name) = none := by
  have h : Text.after? (family ++ "-") (family ++ "-" ++ name) = some name := Text.after?_eq_some_iff.2 rfl
  simp only [List.mem_cons, List.not_mem_nil, or_false] at hfamily
  rcases hfamily with rfl | rfl <;>
    exact ⟨lookup_eq_none_of_after? h (by decide), lookup_eq_none_of_after? h (by decide),
      Text.after?_eq_none_of_apart h (by decide)⟩

/-- An attribute is a condition on the element. -/
theorem parse?_of_attribute {family name cond : String} (hfamily : family ∈ ["aria", "data"])
    (h : condition? (family ++ "-" ++ name) = some cond) :
    parse? theme (family ++ "-" ++ name) = some (condition cond) := by
  obtain ⟨helement, hmedia, hbracket⟩ := attribute_apart hfamily name
  rw [parse?, helement, hmedia, h, Text.startsWith_eq_isSome_after?, hbracket]
  rfl

/-- **A stem that no table knows is what a variant is read by**, if it is not the beginning of an attribute,
of a bracket or of the children. -/
theorem parse?_eq_stemmed? {stem rest : String} (h : Text.after? stem variant = some rest)
    (htables : ∀ entry ∈ pseudoElements ++ mediaVariants ++ pseudoClasses, Text.after? stem entry.1 = none)
    (hopeners : ["[", "aria-", "data-", "*"].all (Text.apart stem) = true) :
    parse? theme variant = stemmed? theme variant := by
  simp only [List.forall_mem_append] at htables
  obtain ⟨⟨helements, hmedia⟩, hclasses⟩ := htables
  have hother {opener : String} (hopener : opener ∈ ["[", "aria-", "data-", "*"]) :
      Text.after? opener variant = none :=
    Text.after?_eq_none_of_apart h (List.all_eq_true.1 hopeners opener hopener)
  have hbracketed : bracketed? variant = none := by
    rw [bracketed?, Text.enclosed?, hother (by simp)]
    rfl
  have hcondition : condition? variant = none := by
    rw [condition?, lookup_eq_none_of_after? h hclasses, hother (by simp), hother (by simp), hbracketed]
    rfl
  have hchildren : (variant == "*") = false := by
    rw [beq_eq_false_iff_ne]
    rintro rfl
    exact absurd (hother (by simp)) (show Text.after? "*" "*" ≠ none by decide)
  rw [parse?, lookup_eq_none_of_after? h helements, lookup_eq_none_of_after? h hmedia, hcondition,
    hbracketed]
  simp [hchildren]

/-- The stems, each with what reads the text behind it. -/
def readers (theme : Theme) : List (String × (String → Option Variant)) :=
  [("group-", marked? "group" " "), ("peer-", marked? "peer" " ~ "), ("has-", has?), ("not-", not? theme),
   ("max-", max? theme), ("min-", min?), ("@", fun size => (containerQuery? theme size).map container)]

/-- **What stands behind a stem is read by the reader of that stem.** -/
theorem parse?_of_mem_readers {stem rest : String} {read : String → Option Variant}
    (h : (stem, read) ∈ readers theme) : parse? theme (stem ++ rest) = read rest := by
  have hafter : Text.after? stem (stem ++ rest) = some rest := Text.after?_eq_some_iff.2 rfl
  have hother {other : String} (hapart : Text.apart stem other = true) : Text.after? other (stem ++ rest) = none :=
    Text.after?_eq_none_of_apart hafter hapart
  simp only [readers, List.mem_cons, List.not_mem_nil, or_false, Prod.mk.injEq] at h
  rcases h with ⟨rfl, rfl⟩ | ⟨rfl, rfl⟩ | ⟨rfl, rfl⟩ | ⟨rfl, rfl⟩ | ⟨rfl, rfl⟩ | ⟨rfl, rfl⟩ | ⟨rfl, rfl⟩
  · rw [parse?_eq_stemmed? hafter (by decide) (by decide), stemmed?, hafter]
  · rw [parse?_eq_stemmed? hafter (by decide) (by decide), stemmed?, hother (by decide), hafter]
  · rw [parse?_eq_stemmed? hafter (by decide) (by decide), stemmed?, hother (by decide), hother (by decide), hafter]
  · rw [parse?_eq_stemmed? hafter (by decide) (by decide), stemmed?, hother (by decide), hother (by decide),
      hother (by decide), hafter]
  · rw [parse?_eq_stemmed? hafter (by decide) (by decide), stemmed?, hother (by decide), hother (by decide),
      hother (by decide), hother (by decide), hafter]
  · rw [parse?_eq_stemmed? hafter (by decide) (by decide), stemmed?, hother (by decide), hother (by decide),
      hother (by decide), hother (by decide), hother (by decide), hafter]
  · rw [parse?_eq_stemmed? hafter (by decide) (by decide), stemmed?, hother (by decide), hother (by decide),
      hother (by decide), hother (by decide), hother (by decide), hother (by decide), hafter]

/-- What stands behind `not-` is read as what must not hold. -/
theorem parse?_of_not {rest : String} (h : Text.after? "not-" variant = some rest) :
    parse? theme variant = not? theme rest := by
  rw [Text.eq_append_of_after? h]
  exact parse?_of_mem_readers (by simp [readers])

/-- A variant that begins with a dash can only be a breakpoint. -/
theorem parse?_of_dash {rest : String} (h : Text.after? "-" variant = some rest) :
    parse? theme variant =
      (theme.breakpoint? variant).map fun width => media ⟨minWidthQuery width, mediaPriority variant⟩ := by
  have hother {stem : String} (hapart : Text.apart "-" stem = true) : Text.after? stem variant = none :=
    Text.after?_eq_none_of_apart h hapart
  rw [parse?_eq_stemmed? h (by decide) (by decide), stemmed?, hother (by decide), hother (by decide),
    hother (by decide), hother (by decide), hother (by decide), hother (by decide), hother (by decide)]

theorem not?_eq_ignored_iff : not? theme variant = some ignored ↔
    (variant != "dark" && ((mediaVariants.lookup variant).isSome || (theme.breakpoint? variant).isSome)) =
      true := by
  unfold not?
  split
  · rename_i hdark
    simp [unnamedMedia, bne, hdark]
  · rename_i hdark
    split
    · rename_i hmedia
      simp [bne, hdark, hmedia]
    · rename_i hmedia
      simp [hmedia]

/-- **What is ignored**: media queries and breakpoints behind `not-`, and nothing else. -/
theorem parse?_eq_ignored_iff : parse? theme variant = some ignored ↔ isNegatedMedia theme variant = true := by
  constructor
  · intro h
    obtain ⟨rest, hrest⟩ := origin_of_parse? h
    rw [parse?_of_not hrest] at h
    rw [isNegatedMedia, hrest]
    exact not?_eq_ignored_iff.1 h
  · intro h
    obtain ⟨rest, hrest, hmedia⟩ := (Option.any_eq_true ..).1 h
    rw [parse?_of_not hrest]
    exact not?_eq_ignored_iff.2 hmedia

end AtomicCss.Variant
