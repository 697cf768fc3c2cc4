import AtomicCss.Proofs.Text.Exposed
import AtomicCss.Proofs.Variant.Containment

/-!
# What can get out of a selector

A selector holds the class of a token, escaped, and the texts of its variants, some of them as they were
written. This module says that whether a delimiter takes effect is up to the variants *alone*, and that
variants without delimiters are harmless.

## The architecture

* **`Selector.IsContained`** — the selector exposes no delimiter and the queries hold none.
* **`Draft.IsContained`** — the texts of a draft hold no delimiter. Effects without delimiters keep it
  (`IsContained.apply` is the step, `IsContained.foldl` the run).
* **`Draft.Alike`** — two drafts that differ in their classes only. Every effect keeps it (`Alike.apply`,
  `Alike.foldl`), since any two classes read alike.
* **`Selector.isContained_build?_iff`** — the selector of a token is contained exactly if that of the
  unnamed class with the same variants is.
* **`Selector.tight_build?_iff`** — it exposes a delimiter exactly if a variant brings one in, as long as no
  variant leaves a backslash open (`IsComplete.tight_apply` is the step, `IsComplete.tight_foldl` the run).
* **`Selector.isContained_of_variants`** — a selector is contained if no variant holds a delimiter.
-/

namespace AtomicCss

open Text (breaksOut leaks Complete Tight)

/-! ## Contained selectors -/

/-- No delimiter can take effect in the head of a rule: the selector exposes none, and the queries hold
none at all. -/
structure Selector.IsContained (head : Selector) : Prop where
  exposed : ∀ c ∈ Text.exposed false head.selector.toList, Text.isDelimiter c = false
  media : ∀ query ∈ head.media, breaksOut query.query = false
  container : ∀ query ∈ head.container, breaksOut query = false

/-- A tight text exposes no delimiter. -/
theorem Text.tight_iff {s : String} :
    Tight s ↔ ∀ c ∈ exposed false s.toList, isDelimiter c = false := by
  simp [Tight, leaks, List.filter_eq_nil_iff]

/-- A contained selector has a tight text. -/
theorem Selector.isContained_iff {head : Selector} : head.IsContained ↔
    Tight head.selector ∧ (∀ query ∈ head.media, breaksOut query.query = false) ∧
      ∀ query ∈ head.container, breaksOut query = false := by
  rw [Text.tight_iff]
  exact ⟨fun h => ⟨h.exposed, h.media, h.container⟩, fun h => ⟨h.1, h.2.1, h.2.2⟩⟩

namespace Draft

variable {draft draft' : Draft} {effect : Variant}

/-! ## Drafts without delimiters -/

/-- The texts of a draft hold no delimiter. -/
structure IsContained (draft : Draft) : Prop where
  ancestors : breaksOut draft.ancestors = false
  compound : breaksOut draft.compound = false
  element : ∀ pseudo ∈ draft.element, breaksOut pseudo = false
  media : ∀ query ∈ draft.media, breaksOut query.query = false
  container : ∀ query ∈ draft.container, breaksOut query = false

theorem isContained_ofToken : (ofToken "").IsContained where
  ancestors := rfl
  compound := by decide
  element _ h := by cases h
  media _ h := by cases h
  container _ h := by cases h

theorem IsContained.subject (h : draft.IsContained) : breaksOut draft.subject = false := by
  rw [Draft.subject, Text.breaksOut_append, h.ancestors, h.compound]
  rfl

/-- **An effect without delimiters adds none.** One case for each effect. -/
theorem IsContained.apply (h : draft.IsContained) (he : effect.IsContained) :
    (draft.apply effect).IsContained := by
  cases effect with
  | element pseudo =>
    exact { h with element := fun p hp => by rw [← Option.some.inj hp]; exact he }
  | media query => exact { h with media := fun q hq => by rw [← Option.some.inj hq]; exact he }
  | container query => exact { h with container := fun q hq => by rw [← Option.some.inj hq]; exact he }
  | condition text =>
    have hcompound : breaksOut (draft.compound ++ text) = false := by
      rw [Text.breaksOut_append, h.compound, he]
      rfl
    exact { h with compound := hcompound }
  | ancestor text =>
    have hancestors : breaksOut (draft.ancestors ++ text) = false := by
      rw [Text.breaksOut_append, h.ancestors, he]
      rfl
    exact { h with ancestors := hancestors }
  | children =>
    have hopen : breaksOut ":is(" = false := Variant.breaksOut_of_mem (by simp [Variant.fixedTexts])
    have hclose : breaksOut " > *)" = false := Variant.breaksOut_of_mem (by simp [Variant.fixedTexts])
    -- the ancestors move inside the parentheses
    have hcompound : breaksOut (":is(" ++ draft.subject ++ " > *)") = false := by
      rw [Text.breaksOut_append, Text.breaksOut_append, hopen, h.subject, hclose]
      rfl
    exact { h with ancestors := rfl, compound := hcompound }
  | template pieces =>
    exact { h with ancestors := rfl, compound := Text.breaksOut_intercalate h.subject he }
  | ignored => exact h

/-- Nor do many. -/
theorem IsContained.foldl {effects : List Variant} (he : ∀ effect ∈ effects, effect.IsContained) :
    ∀ {draft : Draft}, draft.IsContained → (effects.foldl Draft.apply draft).IsContained := by
  induction effects with
  | nil => exact fun h => h
  | cons effect effects ih =>
    intro draft h
    exact ih (fun e hmem => he e (List.mem_cons_of_mem _ hmem))
      (h.apply (he effect (List.mem_cons_self ..)))

/-- The pseudo-element of a draft is the one of some effect, or was there before. -/
theorem element_foldl {effects : List Variant} : ∀ {draft : Draft} {pseudo : String},
    (effects.foldl apply draft).element = some pseudo →
      Variant.element pseudo ∈ effects ∨ draft.element = some pseudo := by
  induction effects with
  | nil => exact fun h => .inr h
  | cons effect effects ih =>
    intro draft pseudo h
    rcases ih h with hmem | hbefore
    · exact .inl (List.mem_cons_of_mem _ hmem)
    · cases effect with
      | element p =>
        obtain rfl : p = pseudo := Option.some.inj hbefore
        exact .inl (List.mem_cons_self ..)
      | media _ => exact .inr hbefore
      | container _ => exact .inr hbefore
      | condition _ => exact .inr hbefore
      | ancestor _ => exact .inr hbefore
      | children => exact .inr hbefore
      | template _ => exact .inr hbefore
      | ignored => exact .inr hbefore

/-! ## Drafts that differ in their classes -/

/-- The texts of two drafts read alike, and all else is the same. -/
structure Alike (draft draft' : Draft) : Prop where
  ancestors : Text.Alike draft.ancestors.toList draft'.ancestors.toList
  compound : Text.Alike draft.compound.toList draft'.compound.toList
  element : draft.element = draft'.element
  media : draft.media = draft'.media
  container : draft.container = draft'.container

theorem alike_ofToken (token token' : String) : (ofToken token).Alike (ofToken token') where
  ancestors := .refl _
  compound := Text.alike_class token token'
  element := rfl
  media := rfl
  container := rfl

theorem Alike.subject (h : draft.Alike draft') :
    Text.Alike draft.subject.toList draft'.subject.toList := by
  rw [Draft.subject, Draft.subject, String.toList_append, String.toList_append]
  exact h.ancestors.append h.compound

/-- **Every effect keeps the likeness.** It puts the same texts around both. One case for each effect. -/
theorem Alike.apply (h : draft.Alike draft') (effect : Variant) :
    (draft.apply effect).Alike (draft'.apply effect) := by
  cases effect with
  | element pseudo => exact { h with element := rfl }
  | media query => exact { h with media := rfl }
  | container query => exact { h with container := rfl }
  | condition text =>
    have hcompound : Text.Alike (draft.compound ++ text).toList (draft'.compound ++ text).toList := by
      rw [String.toList_append, String.toList_append]
      exact h.compound.append (.refl _)
    exact { h with compound := hcompound }
  | ancestor text =>
    have hancestors : Text.Alike (draft.ancestors ++ text).toList (draft'.ancestors ++ text).toList := by
      rw [String.toList_append, String.toList_append]
      exact h.ancestors.append (.refl _)
    exact { h with ancestors := hancestors }
  | children =>
    have hcompound : Text.Alike (":is(" ++ draft.subject ++ " > *)").toList
        (":is(" ++ draft'.subject ++ " > *)").toList := by
      simp only [String.toList_append]
      exact ((Text.Alike.refl _).append h.subject).append (.refl _)
    exact { h with ancestors := .refl _, compound := hcompound }
  | template pieces => exact { h with ancestors := .refl _, compound := h.subject.intercalate pieces }
  | ignored => exact h

/-- Many effects keep it. -/
theorem Alike.foldl (effects : List Variant) : ∀ {draft draft' : Draft}, draft.Alike draft' →
    (effects.foldl Draft.apply draft).Alike (effects.foldl Draft.apply draft') := by
  induction effects with
  | nil => exact fun h => h
  | cons effect effects ih => exact fun h => ih (h.apply effect)

/-! ## Drafts that leave nothing open -/

/-- The texts of a draft leave no backslash open. -/
structure IsComplete (draft : Draft) : Prop where
  ancestors : Complete draft.ancestors
  compound : Complete draft.compound

theorem isComplete_ofToken (token : String) : (ofToken token).IsComplete where
  ancestors := rfl
  compound := (Text.leaks_class token false).2

theorem IsComplete.subject (h : draft.IsComplete) : Complete draft.subject :=
  h.ancestors.append h.compound

theorem IsComplete.tight_subject (h : draft.IsComplete) :
    Tight draft.subject ↔ Tight draft.ancestors ∧ Tight draft.compound :=
  h.ancestors.tight_append

theorem tight_ofToken (token : String) : Tight (ofToken token).subject := by
  rw [(isComplete_ofToken token).tight_subject]
  exact ⟨rfl, (Text.leaks_class token false).1⟩

/-- An effect that leaves nothing open keeps it so. One case for each effect. -/
theorem IsComplete.apply (h : draft.IsComplete) (he : effect.IsComplete) :
    (draft.apply effect).IsComplete := by
  cases effect with
  | element pseudo => exact { h with }
  | media query => exact { h with }
  | container query => exact { h with }
  | condition text => exact { h with compound := h.compound.append (he text (List.mem_singleton_self _)) }
  | ancestor text => exact { h with ancestors := h.ancestors.append (he text (List.mem_singleton_self _)) }
  | children =>
    have hopen : Complete ":is(" := by unfold Complete; decide
    have hclose : Complete " > *)" := by unfold Complete; decide
    exact { h with ancestors := rfl, compound := (hopen.append h.subject).append hclose }
  | template pieces => exact { h with ancestors := rfl, compound := h.subject.intercalate he }
  | ignored => exact h

/-- **An effect adds its own leaks and hides none.** One case for each effect; in a template the subject has
a place, so what leaked before does so still. -/
theorem IsComplete.tight_apply (h : draft.IsComplete) (he : effect.IsComplete)
    (hplace : ∀ pieces, effect = .template pieces → 2 ≤ pieces.length) :
    Tight (draft.apply effect).subject ↔ Tight draft.subject ∧ effect.IsTight := by
  rw [(h.apply he).tight_subject]
  cases effect with
  | element pseudo => simp [Draft.apply, h.tight_subject, Variant.IsTight, Variant.selectorTexts]
  | media query => simp [Draft.apply, h.tight_subject, Variant.IsTight, Variant.selectorTexts]
  | container query => simp [Draft.apply, h.tight_subject, Variant.IsTight, Variant.selectorTexts]
  | condition text =>
    simp only [Draft.apply, Variant.IsTight, Variant.selectorTexts, List.forall_mem_singleton,
      h.tight_subject, h.compound.tight_append, and_assoc]
  | ancestor text =>
    simp only [Draft.apply, Variant.IsTight, Variant.selectorTexts, List.forall_mem_singleton,
      h.tight_subject, h.ancestors.tight_append]
    exact and_right_comm
  | children =>
    have hopen : Complete ":is(" := by unfold Complete; decide
    have hopen' : Tight ":is(" := by unfold Tight; decide
    have hclose : Tight " > *)" := by unfold Tight; decide
    simp [Draft.apply, Variant.IsTight, Variant.selectorTexts, (hopen.append h.subject).tight_append,
      hopen.tight_append, hopen', hclose, Text.tight_empty]
  | template pieces =>
    have hpieces : ∀ piece ∈ pieces, Complete piece := he
    -- the subject has a place, so it leaks from the template what it leaked before
    have hlength := hplace pieces rfl
    simp [Draft.apply, Variant.IsTight, Variant.selectorTexts, h.subject.tight_intercalate hpieces, hlength,
      Text.tight_empty]
  | ignored => simp [Draft.apply, h.tight_subject, Variant.IsTight, Variant.selectorTexts]

/-- Many effects leak what each of them leaks. -/
theorem IsComplete.tight_foldl {effects : List Variant} (he : ∀ effect ∈ effects, effect.IsComplete)
    (hplace : ∀ pieces, .template pieces ∈ effects → 2 ≤ pieces.length) :
    ∀ {draft : Draft}, draft.IsComplete →
      (Tight (effects.foldl Draft.apply draft).subject ↔
        Tight draft.subject ∧ ∀ effect ∈ effects, effect.IsTight) := by
  induction effects with
  | nil =>
    intro draft _
    simp
  | cons effect effects ih =>
    intro draft h
    have hfirst := he effect (List.mem_cons_self ..)
    have hstep := h.tight_apply hfirst fun pieces heq => hplace pieces (heq ▸ List.mem_cons_self ..)
    rw [List.foldl_cons, ih (fun e hmem => he e (List.mem_cons_of_mem _ hmem))
      (fun pieces hmem => hplace pieces (List.mem_cons_of_mem _ hmem)) (h.apply hfirst), hstep,
      List.forall_mem_cons, and_assoc]

end Draft

/-! ## Finished selectors -/

namespace Selector

variable {theme : Theme} {token : String} {variants : List String} {suffix : Option String}

/-- The effects are those of the variants. -/
theorem mem_of_mapM {f : String → Option Variant} {effect : Variant} : ∀ {variants : List String}
    {effects : List Variant}, variants.mapM f = some effects →
      (effect ∈ effects ↔ ∃ variant ∈ variants, f variant = some effect) := by
  intro variants
  induction variants with
  | nil =>
    intro effects h
    cases h
    simp
  | cons variant variants ih =>
    intro effects h
    rw [List.mapM_cons] at h
    obtain ⟨first, hfirst, h⟩ := Option.bind_eq_some_iff.1 h
    obtain ⟨rest, hrest, h⟩ := Option.bind_eq_some_iff.1 h
    cases h
    rw [List.mem_cons, ih hrest, List.exists_mem_cons_iff, hfirst, Option.some.injEq, eq_comm]

/-- What stands behind the subject has no delimiter and does not change what leaks. -/
theorem leaks_finish (draft : Draft) (hsuffix : breaksOut (suffix.getD "") = false)
    (helement : ∀ pseudo ∈ draft.element, breaksOut pseudo = false) :
    leaks false (draft.finish suffix).selector.toList = leaks false draft.subject.toList := by
  have hpseudo : breaksOut (draft.element.getD "") = false := by
    cases h : draft.element with
    | none => rfl
    | some pseudo => exact helement pseudo h
  simp only [Draft.finish, String.toList_append, Text.leaks_append]
  rw [Text.leaks_eq_nil hsuffix, Text.leaks_eq_nil hpseudo, List.append_nil, List.append_nil]

/-- The pseudo-element has no delimiter either, as it comes from a table. -/
theorem breaksOut_element {effects : List Variant}
    (heffects : variants.mapM (Variant.parse? theme) = some effects) :
    ∀ pseudo ∈ (effects.foldl Draft.apply (.ofToken token)).element, breaksOut pseudo = false := by
  intro pseudo hpseudo
  rcases Draft.element_foldl hpseudo with hmem | hnone
  · obtain ⟨variant, -, hparse⟩ := (mem_of_mapM heffects).1 hmem
    exact Variant.breaksOut_of_element hparse
  · cases hnone

/-- **What gets out of a selector is up to its variants.** The selector of a token is contained exactly if
the selector is that the same variants make of a class without a name: neither the token nor the suffix of
its utility matter. -/
theorem isContained_build?_iff {head : Selector} (h : build? theme token variants suffix = some head)
    (hsuffix : breaksOut (suffix.getD "") = false) :
    ∃ outline, build? theme "" variants none = some outline ∧
      (head.IsContained ↔ outline.IsContained) := by
  obtain ⟨effects, heffects, rfl⟩ := Option.map_eq_some_iff.1 h
  refine ⟨(effects.foldl Draft.apply (.ofToken "")).finish none, ?_, ?_⟩
  · unfold build?
    rw [heffects]
    rfl
  -- the two runs apply the same effects to classes that read alike
  have halike := (Draft.alike_ofToken token "").foldl effects
  have hleaks : leaks false ((effects.foldl Draft.apply (.ofToken token)).finish suffix).selector.toList =
      leaks false ((effects.foldl Draft.apply (.ofToken "")).finish none).selector.toList := by
    rw [leaks_finish _ hsuffix (breaksOut_element heffects),
      leaks_finish _ rfl (breaksOut_element heffects)]
    exact (halike.subject false).1
  have hmedia : ((effects.foldl Draft.apply (.ofToken token)).finish suffix).media =
      ((effects.foldl Draft.apply (.ofToken "")).finish none).media := halike.media
  have hcontainer : ((effects.foldl Draft.apply (.ofToken token)).finish suffix).container =
      ((effects.foldl Draft.apply (.ofToken "")).finish none).container := halike.container
  rw [isContained_iff, isContained_iff, Tight, hleaks, hmedia, hcontainer]
  exact Iff.rfl

/-- **A selector leaks exactly what its variants leak**, if none of them leaves a backslash open. -/
theorem tight_build?_iff {head : Selector} (h : build? theme token variants suffix = some head)
    (hsuffix : breaksOut (suffix.getD "") = false)
    (hcomplete : ∀ variant ∈ variants, ∀ effect, Variant.parse? theme variant = some effect →
      effect.IsComplete) :
    Tight head.selector ↔
      ∀ variant ∈ variants, ∀ effect, Variant.parse? theme variant = some effect → effect.IsTight := by
  obtain ⟨effects, heffects, rfl⟩ := Option.map_eq_some_iff.1 h
  have hmem : ∀ {effect}, effect ∈ effects ↔
      ∃ variant ∈ variants, Variant.parse? theme variant = some effect := mem_of_mapM heffects
  -- what is known of the variants is known of their effects
  have heach : ∀ effect ∈ effects, effect.IsComplete := by
    intro effect heffect
    obtain ⟨variant, hvariant, hparse⟩ := hmem.1 heffect
    exact hcomplete variant hvariant effect hparse
  have hplace : ∀ pieces, .template pieces ∈ effects → 2 ≤ pieces.length := by
    intro pieces htemplate
    obtain ⟨variant, -, hparse⟩ := hmem.1 htemplate
    exact Variant.two_le_length_of_template hparse
  have hrun := (Draft.isComplete_ofToken token).tight_foldl heach hplace
  rw [Tight, leaks_finish _ hsuffix (breaksOut_element heffects)]
  refine hrun.trans ((and_iff_right (Draft.tight_ofToken token)).trans ?_)
  constructor
  · exact fun htight variant hvariant effect hparse => htight effect (hmem.2 ⟨variant, hvariant, hparse⟩)
  · intro htight effect heffect
    obtain ⟨variant, hvariant, hparse⟩ := hmem.1 heffect
    exact htight variant hvariant effect hparse

/-- **Variants without delimiters let nothing out**, under a checked theme. -/
theorem isContained_of_variants (hvalid : theme.validate = .ok ()) {outline : Selector}
    (h : build? theme "" variants none = some outline)
    (hvariants : ∀ variant ∈ variants, breaksOut variant = false) : outline.IsContained := by
  obtain ⟨effects, heffects, rfl⟩ := Option.map_eq_some_iff.1 h
  have hcontained : (effects.foldl Draft.apply (.ofToken "")).IsContained := by
    refine Draft.IsContained.foldl (fun effect he => ?_) Draft.isContained_ofToken
    obtain ⟨variant, hmem, hparse⟩ := (mem_of_mapM heffects).1 he
    exact Variant.isContained_of_parse? hvalid hparse (hvariants variant hmem)
  refine isContained_iff.2 ⟨?_, hcontained.media, hcontained.container⟩
  rw [Tight, leaks_finish _ rfl hcontained.element]
  exact Text.leaks_eq_nil hcontained.subject false

end Selector

end AtomicCss
