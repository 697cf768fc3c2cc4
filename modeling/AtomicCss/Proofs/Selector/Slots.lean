import AtomicCss.Proofs.Ordered.Extension
import AtomicCss.Proofs.Variant.Inversion
import AtomicCss.Selector
import Mathlib.Data.List.Basic

/-!
# The slots of a selector

A draft has three slots in which the last effect counts, the pseudo-element and the two queries, and a text,
to which every other effect adds. No effect reads a slot, and none writes to more than one of these four, so
each of them can be told from the variants that write to it, whatever stands between them.

## The architecture

* **`Draft.element_run`**, **`Draft.media_run`**, **`Draft.container_run`** — a slot after a run: what the last effect
  set that sets it.
* **`Draft.SameText`** — two drafts with the same text. Every effect keeps it (`SameText.apply` is the step),
  and effects aside from the text can be left out (`SameText.foldl_filter` is the run).
* **`Selector.mapM_filter`**, **`Selector.filterMap_of_mapM`** — variants are read one by one, so leaving out
  a variant leaves out its effect.
* **`Selector.build?_slots`** — all put together for the selector of a token.
-/

namespace AtomicCss

/-! ## What an effect writes to -/

namespace Variant

/-- The pseudo-element that an effect sets. -/
def element? : Variant → Option String
  | element pseudo => some pseudo
  | _ => none

/-- The media query that an effect sets. -/
def media? : Variant → Option MediaQuery
  | media query => some query
  | _ => none

/-- The container query that an effect sets. -/
def container? : Variant → Option String
  | container query => some query
  | _ => none

/-- An effect is about queries alone: it sets one, or it is a media query that cannot be negated and is
ignored. -/
def isQuery : Variant → Bool
  | media _ | container _ | ignored => true
  | _ => false

/-- An effect leaves the text of a selector alone: it is about queries or sets a pseudo-element. -/
def isAside (effect : Variant) : Bool :=
  effect.isQuery || effect.element?.isSome

/-- A variant is about queries alone: it sets one, or it is one that cannot be negated behind `not-`. -/
def onlyQueries (theme : Theme) (variant : String) : Bool :=
  (parse? theme variant).any (fun effect => effect.media?.isSome || effect.container?.isSome) ||
    isNegatedMedia theme variant

theorem element?_eq_some_iff {effect : Variant} {pseudo : String} :
    effect.element? = some pseudo ↔ effect = element pseudo := by
  cases effect <;> simp [element?]

theorem isAside_of_isQuery {effect : Variant} (h : effect.isQuery = true) : effect.isAside = true := by
  rw [isAside, h, Bool.true_or]

theorem element?_of_isQuery {effect : Variant} (h : effect.isQuery = true) : effect.element? = none := by
  rw [Option.eq_none_iff_forall_ne_some]
  intro pseudo hpseudo
  rw [element?_eq_some_iff.1 hpseudo] at h
  cases h

variable {theme : Theme} {variant : String} {effect : Variant}

/-- Whether a variant sets a pseudo-element, and which, is up to the table. -/
theorem element?_eq_lookup (h : parse? theme variant = some effect) :
    effect.element? = pseudoElements.lookup variant := by
  cases hpseudo : pseudoElements.lookup variant with
  | some pseudo =>
    -- the table is asked first
    have hparse : parse? theme variant = some (element pseudo) := by
      unfold parse?
      rw [hpseudo]
    rw [h] at hparse
    cases hparse
    rfl
  | none =>
    cases effect with
    | element pseudo =>
      have hlookup : pseudoElements.lookup variant = some pseudo := origin_of_parse? h
      rw [hpseudo] at hlookup
      cases hlookup
    | _ => rfl

/-- The variants about queries are those with such an effect. -/
theorem onlyQueries_eq (theme : Theme) (variant : String) :
    onlyQueries theme variant = (parse? theme variant).any isQuery := by
  have hignored := @parse?_eq_ignored_iff theme variant
  rw [onlyQueries]
  cases h : isNegatedMedia theme variant with
  | true =>
    rw [hignored.2 h]
    rfl
  | false =>
    cases hparse : parse? theme variant with
    | none => rfl
    | some effect =>
      cases effect with
      | ignored =>
        rw [hignored.1 hparse] at h
        cases h
      | _ => rfl

theorem lookup_of_parse?_eq_none (h : parse? theme variant = none) :
    pseudoElements.lookup variant = none := by
  cases hpseudo : pseudoElements.lookup variant with
  | none => rfl
  | some pseudo =>
    unfold parse? at h
    rw [hpseudo] at h
    cases h

end Variant

namespace Draft

/-! ## Slots -/

section Token

variable (effects : List Variant) (token : String)

theorem element_run :
    (effects.foldl apply (.ofToken token)).element = (effects.filterMap Variant.element?).getLast? :=
  (foldl_slot _ (fun _ effect => by cases effect <;> rfl) effects _).trans (Option.or_none ..)

theorem media_run :
    (effects.foldl apply (.ofToken token)).media = (effects.filterMap Variant.media?).getLast? :=
  (foldl_slot _ (fun _ effect => by cases effect <;> rfl) effects _).trans (Option.or_none ..)

theorem container_run :
    (effects.foldl apply (.ofToken token)).container = (effects.filterMap Variant.container?).getLast? :=
  (foldl_slot _ (fun _ effect => by cases effect <;> rfl) effects _).trans (Option.or_none ..)

end Token

/-- Leaving out effects that set nothing changes nothing in a slot. -/
theorem filterMap_filter_of {α : Type} {set : Variant → Option α} (keep : Variant → Bool)
    (hkeep : ∀ effect, keep effect = false → set effect = none) (effects : List Variant) :
    (effects.filter keep).filterMap set = effects.filterMap set := by
  rw [List.filterMap_filter]
  refine List.filterMap_congr fun effect _ => ?_
  cases hk : keep effect with
  | true => rfl
  | false => rw [hkeep effect hk, if_neg Bool.false_ne_true]

/-! ## Text -/

/-- Two drafts have the same text, slots apart. -/
structure SameText (draft draft' : Draft) : Prop where
  ancestors : draft.ancestors = draft'.ancestors
  compound : draft.compound = draft'.compound

variable {draft draft' : Draft}

theorem SameText.refl (draft : Draft) : draft.SameText draft := ⟨rfl, rfl⟩

theorem SameText.subject (h : draft.SameText draft') : draft.subject = draft'.subject := by
  rw [Draft.subject, Draft.subject, h.ancestors, h.compound]

/-- What an effect adds to the text depends on the text alone. One case for each effect. -/
theorem SameText.apply (h : draft.SameText draft') (effect : Variant) :
    (draft.apply effect).SameText (draft'.apply effect) := by
  cases effect with
  | element pseudo => exact ⟨h.ancestors, h.compound⟩
  | media query => exact ⟨h.ancestors, h.compound⟩
  | container query => exact ⟨h.ancestors, h.compound⟩
  | condition text => exact ⟨h.ancestors, congrArg (· ++ text) h.compound⟩
  | ancestor text => exact ⟨congrArg (· ++ text) h.ancestors, h.compound⟩
  | children => exact ⟨rfl, congrArg (":is(" ++ · ++ " > *)") h.subject⟩
  | template pieces => exact ⟨rfl, congrArg (String.intercalate · pieces) h.subject⟩
  | ignored => exact h

/-- An effect aside from the text leaves it as it was. -/
theorem SameText.apply_aside (h : draft.SameText draft') {effect : Variant}
    (haside : effect.isAside = true) : (draft.apply effect).SameText draft' := by
  cases effect with
  | element pseudo => exact ⟨h.ancestors, h.compound⟩
  | media query => exact ⟨h.ancestors, h.compound⟩
  | container query => exact ⟨h.ancestors, h.compound⟩
  | ignored => exact h
  | condition text => cases haside
  | ancestor text => cases haside
  | children => cases haside
  | template pieces => cases haside

/-- **Leaving out effects aside from the text** does not change the text. -/
theorem SameText.foldl_filter (keep : Variant → Bool)
    (hkeep : ∀ effect, keep effect = false → effect.isAside = true) (effects : List Variant) :
    ∀ {draft draft' : Draft}, draft.SameText draft' →
      (effects.foldl Draft.apply draft).SameText ((effects.filter keep).foldl Draft.apply draft') := by
  induction effects with
  | nil => exact fun h => h
  | cons effect effects ih =>
    intro draft draft' h
    rw [List.foldl_cons]
    cases hk : keep effect with
    | true =>
      rw [List.filter_cons_of_pos hk, List.foldl_cons]
      exact ih (h.apply effect)
    | false =>
      rw [List.filter_cons_of_neg (by simp [hk])]
      exact ih (h.apply_aside (hkeep effect hk))

end Draft

/-! ## Selectors -/

namespace Selector

/-- Leaving out variants leaves out their effects. An unknown variant must stay, since it is what makes the
reading fail. -/
theorem mapM_filter (f : String → Option Variant) (p : String → Bool) (q : Variant → Bool)
    (h : ∀ variant, p variant = ((f variant).map q).getD true) (variants : List String) :
    (variants.filter p).mapM f = (variants.mapM f).map (List.filter q) := by
  induction variants with
  | nil => rfl
  | cons variant variants ih =>
    have hp := h variant
    rw [List.mapM_cons]
    cases hf : f variant with
    | none =>
      rw [hf] at hp
      rw [List.filter_cons_of_pos hp, List.mapM_cons, hf]
      rfl
    | some effect =>
      rw [hf] at hp
      have hp : p variant = q effect := hp
      cases hq : q effect with
      | true =>
        rw [List.filter_cons_of_pos (hp.trans hq), List.mapM_cons, hf, ih]
        cases variants.mapM f with
        | none => rfl
        | some effects => simp [hq]
      | false =>
        rw [List.filter_cons_of_neg (by simp [hp, hq]), ih]
        cases variants.mapM f with
        | none => rfl
        | some effects => simp [hq]

/-- What is told of a variant by its effect can be told of the effects of all variants. -/
theorem filterMap_of_mapM {α : Type} {f : String → Option Variant} {g : Variant → Option α}
    {k : String → Option α} (h : ∀ variant effect, f variant = some effect → g effect = k variant) :
    ∀ {variants : List String} {effects : List Variant}, variants.mapM f = some effects →
      effects.filterMap g = variants.filterMap k := by
  intro variants
  induction variants with
  | nil =>
    intro effects heffects
    cases heffects
    rfl
  | cons variant variants ih =>
    intro effects heffects
    rw [List.mapM_cons] at heffects
    obtain ⟨first, hfirst, heffects⟩ := Option.bind_eq_some_iff.1 heffects
    obtain ⟨rest, hrest, heffects⟩ := Option.bind_eq_some_iff.1 heffects
    cases heffects
    rw [List.filterMap_cons, List.filterMap_cons, h variant first hfirst, ih hrest]

variable (theme : Theme) (token : String) (suffix : Option String)

theorem isSome_build?_iff (variants : List String) :
    (build? theme token variants suffix).isSome ↔ (variants.mapM (Variant.parse? theme)).isSome := by
  rw [build?, Option.isSome_map]

/-- The queries of a selector are the last ones of their kind. -/
theorem queries_build? {variants : List String} {effects : List Variant} {head : Selector}
    (heffects : variants.mapM (Variant.parse? theme) = some effects)
    (h : build? theme token variants suffix = some head) :
    head.media = (effects.filterMap Variant.media?).getLast? ∧
      head.container = (effects.filterMap Variant.container?).getLast? := by
  rw [build?, heffects] at h
  cases h
  exact ⟨Draft.media_run effects token, Draft.container_run effects token⟩

/-- Without the effects about queries the selector is the same. -/
theorem selector_finish_filter (effects : List Variant) :
    (((effects.filter (!·.isQuery)).foldl Draft.apply (.ofToken token)).finish suffix).selector =
      ((effects.foldl Draft.apply (.ofToken token)).finish suffix).selector := by
  have hquery (effect : Variant) (h : (!effect.isQuery) = false) : effect.isQuery = true := by
    simpa using h
  have htext := Draft.SameText.foldl_filter (!·.isQuery)
    (fun effect h => Variant.isAside_of_isQuery (hquery effect h)) effects (.refl (.ofToken token))
  have helement := Draft.filterMap_filter_of (!·.isQuery)
    (fun effect h => Variant.element?_of_isQuery (hquery effect h)) effects
  rw [Draft.finish, Draft.finish, htext.subject, Draft.element_run, Draft.element_run, helement]

/-- A selector is the one without its pseudo-elements, then the suffix, then the last of them. -/
theorem finish_eq (effects : List Variant) :
    (effects.foldl Draft.apply (.ofToken token)).finish suffix =
      let core := ((effects.filter (·.element?.isNone)).foldl Draft.apply (.ofToken token)).finish none
      { core with selector :=
          core.selector ++ suffix.getD "" ++ (effects.filterMap Variant.element?).getLast?.getD "" } := by
  have hdropped (effect : Variant) (h : effect.element?.isNone = false) :
      ∃ pseudo, effect = .element pseudo := by
    obtain ⟨pseudo, hpseudo⟩ := Option.isSome_iff_exists.1 (Option.isNone_eq_false_iff.1 h)
    exact ⟨pseudo, Variant.element?_eq_some_iff.1 hpseudo⟩
  have htext := Draft.SameText.foldl_filter (·.element?.isNone)
    (fun effect h => by obtain ⟨pseudo, rfl⟩ := hdropped effect h; rfl) effects (.refl (.ofToken token))
  have hmedia : (effects.filter (·.element?.isNone)).filterMap Variant.media? =
      effects.filterMap Variant.media? :=
    Draft.filterMap_filter_of _
      (fun effect h => by obtain ⟨pseudo, rfl⟩ := hdropped effect h; rfl) effects
  have hcontainer : (effects.filter (·.element?.isNone)).filterMap Variant.container? =
      effects.filterMap Variant.container? :=
    Draft.filterMap_filter_of _
      (fun effect h => by obtain ⟨pseudo, rfl⟩ := hdropped effect h; rfl) effects
  -- no effect that is left sets a pseudo-element
  have hnone : (effects.filter (·.element?.isNone)).filterMap Variant.element? = [] := by
    rw [List.filterMap_eq_nil_iff]
    intro effect heffect
    exact Option.isNone_iff_eq_none.1 (List.mem_filter.1 heffect).2
  simp only [Draft.finish, htext.subject, Draft.element_run, Draft.media_run, Draft.container_run, hmedia,
    hcontainer, hnone, List.getLast?_nil, Option.getD_none, String.append_empty]

variable {theme suffix} in
theorem isSome_build?_append (first second : List String) :
    (build? theme token (first ++ second) suffix).isSome ↔
      (build? theme token first suffix).isSome ∧ (build? theme token second suffix).isSome := by
  simp only [isSome_build?_iff, List.mapM_append]
  cases first.mapM (Variant.parse? theme) <;> cases second.mapM (Variant.parse? theme) <;> simp

variable {theme token suffix} in
/-- The queries of the second part go before those of the first. -/
theorem queries_build?_append {first second : List String} {head head' whole : Selector}
    (hfirst : build? theme token first suffix = some head)
    (hsecond : build? theme token second suffix = some head')
    (hwhole : build? theme token (first ++ second) suffix = some whole) :
    whole.media = head'.media.or head.media ∧ whole.container = head'.container.or head.container := by
  obtain ⟨effects, heffects, -⟩ := Option.map_eq_some_iff.1 hfirst
  obtain ⟨effects', heffects', -⟩ := Option.map_eq_some_iff.1 hsecond
  have happend : (first ++ second).mapM (Variant.parse? theme) = some (effects ++ effects') := by
    rw [List.mapM_append, heffects, heffects']
    rfl
  obtain ⟨hmedia, hcontainer⟩ := queries_build? theme token suffix heffects hfirst
  obtain ⟨hmedia', hcontainer'⟩ := queries_build? theme token suffix heffects' hsecond
  obtain ⟨hmediaw, hcontainerw⟩ := queries_build? theme token suffix happend hwhole
  rw [List.filterMap_append, List.getLast?_append] at hmediaw hcontainerw
  rw [hmediaw, hcontainerw, hmedia, hmedia', hcontainer, hcontainer']
  exact ⟨rfl, rfl⟩

/-- Variants about queries leave the selector alone. -/
theorem selector_build?_filter (variants : List String) :
    (build? theme token (variants.filter (!Variant.onlyQueries theme ·)) suffix).map Selector.selector =
      (build? theme token variants suffix).map Selector.selector := by
  have hkeep : ∀ variant, (!Variant.onlyQueries theme variant) =
      ((Variant.parse? theme variant).map (!·.isQuery)).getD true := by
    intro variant
    rw [Variant.onlyQueries_eq]
    cases Variant.parse? theme variant <;> rfl
  rw [build?, build?, mapM_filter _ _ _ hkeep]
  cases variants.mapM (Variant.parse? theme) with
  | none => rfl
  | some effects => exact congrArg some (selector_finish_filter token suffix effects)

/-- The pseudo-elements can be left out, and the last of them put behind the suffix. -/
theorem build?_eq_core (variants : List String) :
    build? theme token variants suffix =
      (build? theme token (variants.filter (pseudoElements.lookup · |>.isNone)) none).map fun core =>
        { core with selector :=
            core.selector ++ suffix.getD "" ++
              (variants.filterMap (pseudoElements.lookup ·)).getLast?.getD "" } := by
  have hkeep : ∀ variant, (pseudoElements.lookup variant).isNone =
      ((Variant.parse? theme variant).map (·.element?.isNone)).getD true := by
    intro variant
    cases hparse : Variant.parse? theme variant with
    | none =>
      rw [Variant.lookup_of_parse?_eq_none hparse]
      rfl
    | some effect =>
      rw [← Variant.element?_eq_lookup hparse]
      rfl
  rw [build?, build?, mapM_filter _ _ _ hkeep]
  cases heffects : variants.mapM (Variant.parse? theme) with
  | none => rfl
  | some effects =>
    have hlast : effects.filterMap Variant.element? = variants.filterMap (pseudoElements.lookup ·) :=
      filterMap_of_mapM (fun _ _ h => Variant.element?_eq_lookup h) heffects
    rw [← hlast]
    exact congrArg some (finish_eq token suffix effects)

/-- **The slots of a selector do not see each other.** For every theme, token and suffix:

* a list of variants makes a selector exactly if each part of it does;
* the media query is the one of the second part if it sets one and otherwise the one of the first, and so is
  the container query, each for itself;
* leaving out all variants about queries changes neither the selector nor whether there is one;
* the pseudo-elements only add the last of them at the very end, behind the suffix. -/
theorem build?_slots :
    (∀ first second : List String,
      (build? theme token (first ++ second) suffix).isSome ↔
        (build? theme token first suffix).isSome ∧ (build? theme token second suffix).isSome) ∧
    (∀ (first second : List String) (head head' whole : Selector),
      build? theme token first suffix = some head → build? theme token second suffix = some head' →
      build? theme token (first ++ second) suffix = some whole →
        whole.media = head'.media.or head.media ∧ whole.container = head'.container.or head.container) ∧
    (∀ variants : List String,
      (build? theme token (variants.filter (!Variant.onlyQueries theme ·)) suffix).map Selector.selector =
        (build? theme token variants suffix).map Selector.selector) ∧
    ∀ variants : List String,
      build? theme token variants suffix =
        (build? theme token (variants.filter (pseudoElements.lookup · |>.isNone)) none).map fun core =>
          { core with selector :=
              core.selector ++ suffix.getD "" ++
                (variants.filterMap (pseudoElements.lookup ·)).getLast?.getD "" } := by
  refine ⟨isSome_build?_append token, ?_, selector_build?_filter theme token suffix,
    build?_eq_core theme token suffix⟩
  intro first second head head' whole hfirst hsecond hwhole
  exact queries_build?_append hfirst hsecond hwhole

/-- The first part sets both queries and the second a media query only, so that the media query is that of
the second part and the container query that of the first. -/
theorem sm_gives_way_to_lg :
    ∃ head head' whole,
      build? Theme.empty "x" ["sm", "after", "@md"] none = some head ∧
      build? Theme.empty "x" ["not-print", "lg", "hover"] none = some head' ∧
      build? Theme.empty "x" (["sm", "after", "@md"] ++ ["not-print", "lg", "hover"]) none = some whole ∧
      head.media ≠ head'.media ∧ head.container ≠ head'.container ∧
      whole.media = head'.media.or head.media ∧ whole.container = head'.container.or head.container := by
  have hfirst : build? Theme.empty "x" ["sm", "after", "@md"] none =
      some ⟨".x::after", some ⟨"@media (min-width: 40rem)", 1⟩, some "@container (min-width: 28rem)"⟩ := by
    decide
  have hsecond : build? Theme.empty "x" ["not-print", "lg", "hover"] none =
      some ⟨".x:hover", some ⟨"@media (min-width: 64rem)", 3⟩, none⟩ := by
    decide
  have hwhole : build? Theme.empty "x" (["sm", "after", "@md"] ++ ["not-print", "lg", "hover"]) none =
      some ⟨".x:hover::after", some ⟨"@media (min-width: 64rem)", 3⟩,
        some "@container (min-width: 28rem)"⟩ := by
    decide
  obtain ⟨hmedia, hcontainer⟩ := (build?_slots Theme.empty "x" none).2.1 _ _ _ _ _ hfirst hsecond hwhole
  exact ⟨_, _, _, hfirst, hsecond, hwhole, by decide, by decide, hmedia, hcontainer⟩

end Selector

end AtomicCss
