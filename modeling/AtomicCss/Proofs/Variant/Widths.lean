import AtomicCss.Proofs.Theme.Containment
import AtomicCss.Proofs.Variant.Attributes

/-!
# Breakpoints and containers by name

The breakpoints of a theme are variants, but they are looked for last, so that a name which is a variant already keeps
its meaning. A key of a theme is an identifier and cannot be anything in brackets. What remains are the names in the
tables, the attributes, and all that has a stem of its own: `IsBuiltIn` lists them. Container sizes stand behind an
at-sign, where nothing but `max-` is looked for before them.

## The architecture

* **`IsBuiltIn`** — the names that are variants without any theme, or begin like one.
* **`parse?_of_not_isBuiltIn`** — every other name is a breakpoint or nothing.
* **`setsNoWidth_of_isBuiltIn`** — no built-in name is a minimum width, not even by accident.
* **`containerQuery?_of_isIdentifier`** — the same for container sizes.
* **`widths_answer_to_free_names`** — which breakpoints and containers are reached by their names.
-/

namespace AtomicCss.Variant

open Text (isIdentifier)

/-! ## Built-in names -/

/-- The stems behind which a variant is read by what follows. -/
def stems : List String :=
  ["group-", "peer-", "has-", "not-", "max-", "min-"]

/-- A name that is a variant whatever the theme, or that begins like one. -/
inductive IsBuiltIn (name : String) : Prop
  /-- A pseudo-element, a media query or a pseudo-class. -/
  | listed (h : name ∈ (pseudoElements ++ mediaVariants ++ pseudoClasses).map Prod.fst)
  /-- The name of an attribute, which may not be empty. -/
  | keyed {family key : String} (hfamily : family ∈ ["aria", "data"]) (hkey : key ≠ "")
      (h : name = family ++ "-" ++ key)
  /-- Anything behind a stem. -/
  | stemmed {stem rest : String} (hstem : stem ∈ stems) (h : name = stem ++ rest)

variable {theme : Theme} {name : String}

theorem mem_readers_of_mem_stems (theme : Theme) {stem : String} (h : stem ∈ stems) :
    stem ∈ (readers theme).map Prod.fst :=
  List.dropLast_subset _ h

theorem isBuiltIn_iff : IsBuiltIn name ↔
    name ∈ (pseudoElements ++ mediaVariants ++ pseudoClasses).map Prod.fst ∨
    (∃ family ∈ ["aria", "data"], (Text.after? (family ++ "-") name).any (!·.isEmpty) = true) ∨
    ∃ stem ∈ stems, Text.startsWith stem name = true := by
  constructor
  · rintro (h | ⟨hfamily, hkey, h⟩ | ⟨hstem, h⟩)
    · exact .inl h
    · refine .inr (.inl ⟨_, hfamily, ?_⟩)
      rw [Text.after?_eq_some_iff.2 h]
      simpa using hkey
    · exact .inr (.inr ⟨_, hstem, Text.startsWith_iff.2 ⟨_, h⟩⟩)
  · rintro (h | ⟨family, hfamily, h⟩ | ⟨stem, hstem, h⟩)
    · exact .listed h
    · obtain ⟨key, hafter, hkey⟩ := (Option.any_eq_true ..).1 h
      exact .keyed hfamily (by simpa using hkey) (Text.eq_append_of_after? hafter)
    · obtain ⟨rest, h⟩ := Text.startsWith_iff.1 h
      exact .stemmed hstem h

instance : DecidablePred IsBuiltIn :=
  fun _ => decidable_of_iff _ isBuiltIn_iff.symm

/-! ## Names that are free -/

theorem condition?_of_not_isBuiltIn (hname : isIdentifier name = true) (h : ¬ IsBuiltIn name) :
    condition? name = none := by
  have hclass : pseudoClasses.lookup name = none := by
    rw [Option.eq_none_iff_forall_ne_some]
    intro pseudo hpseudo
    exact h (.listed (List.map_subset _ (List.subset_append_right ..) (mem_map_fst_of_lookup hpseudo)))
  -- the stem of an attribute alone is no attribute
  have hkey {family key : String} (hfamily : family ∈ ["aria", "data"])
      (hafter : Text.after? (family ++ "-") name = some key) : attributeVariant? family key = none := by
    obtain rfl : key = "" := by
      by_contra hne
      exact h (.keyed hfamily hne (Text.eq_append_of_after? hafter))
    exact attributeVariant?_empty family
  rw [condition?, hclass]
  dsimp only
  split
  · rename_i key haria
    exact hkey (by simp) haria
  · split
    · rename_i key hdata
      exact hkey (by simp) hdata
    · rw [bracketed?_of_isIdentifier hname]
      rfl

/-- **A name that is not built in is a breakpoint or nothing.** -/
theorem parse?_of_not_isBuiltIn (hname : isIdentifier name = true) (h : ¬ IsBuiltIn name) :
    parse? theme name =
      (theme.breakpoint? name).map fun width => media ⟨minWidthQuery width, mediaPriority name⟩ := by
  have hlookup {table : List (String × String)} (htable : table ⊆ pseudoElements ++ mediaVariants ++ pseudoClasses) :
      table.lookup name = none := by
    rw [Option.eq_none_iff_forall_ne_some]
    intro value hvalue
    exact h (.listed (List.map_subset _ htable (mem_map_fst_of_lookup hvalue)))
  have hstem {stem : String} (hstem : stem ∈ stems) : Text.after? stem name = none := by
    rw [Option.eq_none_iff_forall_ne_some]
    intro rest hrest
    exact h (.stemmed hstem (Text.eq_append_of_after? hrest))
  have hstar : (name == "*") = false := by
    rw [beq_eq_false_iff_ne]
    rintro rfl
    cases hname
  rw [parse?, hlookup (by simp), hlookup (by simp), condition?_of_not_isBuiltIn hname h, hstar,
    bracketed?_of_isIdentifier hname]
  dsimp only [Option.filter]
  rw [if_neg (by simp), stemmed?, hstem (by simp [stems]), hstem (by simp [stems]), hstem (by simp [stems]),
    hstem (by simp [stems]), hstem (by simp [stems]), hstem (by simp [stems]),
    Text.after?_eq_none_of_not_mem rfl (Text.not_mem_of_isIdentifier hname rfl)]

/-! ## Names that are built in -/

/-- The query for a minimum width is told from all others by how it begins. -/
theorem startsWith_minWidthQuery (width : String) :
    Text.startsWith "@media (min-width: " (minWidthQuery width) = true :=
  Text.startsWith_iff.2 ⟨width ++ ")", String.append_assoc ..⟩

/-- An effect that is no query for a minimum width. -/
def SetsNoWidth (effect : Variant) : Prop :=
  ∀ width priority, effect ≠ media ⟨minWidthQuery width, priority⟩

theorem setsNoWidth_media {query : MediaQuery} (h : Text.startsWith "@media (min-width: " query.query = false) :
    (media query).SetsNoWidth := by
  rintro width priority heq
  obtain rfl := media.inj heq
  rw [startsWith_minWidthQuery] at h
  cases h

theorem mediaVariants_pass : ∀ entry ∈ mediaVariants, Text.startsWith "@media (min-width: " entry.2 = false := by
  decide

/-- The names of the tables keep what the tables give them. -/
theorem setsNoWidth_of_listed {effect : Variant} (hname : isIdentifier name = true)
    (hlisted : name ∈ (pseudoElements ++ mediaVariants ++ pseudoClasses).map Prod.fst)
    (h : parse? theme name = some effect) : effect.SetsNoWidth := by
  have hbracket : Text.startsWith "[" name = false := by
    rw [Text.startsWith_eq_isSome_after?, Text.after?_eq_none_of_not_mem rfl (Text.not_mem_of_isIdentifier hname rfl)]
    rfl
  simp only [List.map_append, List.mem_append] at hlisted
  unfold parse? at h
  split at h
  · cases h
    simp [SetsNoWidth]
  · rename_i helement
    split at h
    · rename_i query hquery
      cases h
      exact setsNoWidth_media (mediaVariants_pass _ (mem_of_lookup hquery))
    · rename_i hmedia
      -- what is left is a pseudo-class
      have hclass : name ∈ pseudoClasses.map Prod.fst :=
        hlisted.resolve_left fun h => h.elim (fun h => lookup_ne_none_of_mem h helement)
          fun h => lookup_ne_none_of_mem h hmedia
      obtain ⟨pseudo, hpseudo⟩ := Option.ne_none_iff_exists'.1 (lookup_ne_none_of_mem hclass)
      rw [condition?, hpseudo, hbracket] at h
      cases h
      simp [SetsNoWidth]

theorem setsNoWidth_of_not? {variant : String} {effect : Variant} (h : not? theme variant = some effect) :
    effect.SetsNoWidth := by
  unfold not? at h
  split at h
  · cases h
    exact setsNoWidth_media (by decide)
  · split at h
    · cases h
      simp [SetsNoWidth]
    · obtain ⟨cond, -, rfl⟩ := Option.map_eq_some_iff.1 h
      simp [SetsNoWidth]

/-- Every reader but the one of `min-` makes something else than a minimum width, and that one asks for brackets. -/
theorem setsNoWidth_of_reader {effect : Variant} {stem rest : String} {read : String → Option Variant}
    (hreader : (stem, read) ∈ readers theme) (hrest : '[' ∉ rest.toList) (h : read rest = some effect) :
    effect.SetsNoWidth := by
  simp only [readers, List.mem_cons, List.not_mem_nil, or_false, Prod.mk.injEq] at hreader
  rcases hreader with ⟨-, rfl⟩ | ⟨-, rfl⟩ | ⟨-, rfl⟩ | ⟨-, rfl⟩ | ⟨-, rfl⟩ | ⟨-, rfl⟩ | ⟨-, rfl⟩
  · obtain ⟨cond, -, rfl⟩ := Option.map_eq_some_iff.1 h
    split <;> simp [SetsNoWidth]
  · obtain ⟨cond, -, rfl⟩ := Option.map_eq_some_iff.1 h
    split <;> simp [SetsNoWidth]
  · obtain ⟨cond, -, rfl⟩ := Option.map_eq_some_iff.1 h
    simp [SetsNoWidth]
  · exact setsNoWidth_of_not? h
  · obtain ⟨width, -, rfl⟩ := Option.map_eq_some_iff.1 h
    exact setsNoWidth_media (by simp [Text.startsWith, List.isPrefixOf])
  · obtain ⟨raw, hraw, -⟩ := Option.map_eq_some_iff.1 h
    rw [bracketed?_eq_none_of_not_mem hrest] at hraw
    cases hraw
  · obtain ⟨query, -, rfl⟩ := Option.map_eq_some_iff.1 h
    simp [SetsNoWidth]

/-- **No built-in name is a minimum width**, not even by accident. -/
theorem setsNoWidth_of_isBuiltIn {effect : Variant} (hname : isIdentifier name = true) (hbuiltIn : IsBuiltIn name)
    (h : parse? theme name = some effect) : effect.SetsNoWidth := by
  cases hbuiltIn with
  | listed hlisted => exact setsNoWidth_of_listed hname hlisted h
  | keyed hfamily hkey heq =>
    subst heq
    have hcond := (condition?_of_attribute hfamily _).trans
      (attributeVariant?_of_isIdentifier (Text.isIdentifier_of_append hname hkey))
    rw [parse?_of_attribute hfamily hcond] at h
    cases h
    simp [SetsNoWidth]
  | @stemmed stem rest hstem heq =>
    subst heq
    obtain ⟨⟨stem, read⟩, hreader, rfl⟩ := List.mem_map.1 (mem_readers_of_mem_stems theme hstem)
    rw [parse?_of_mem_readers hreader] at h
    refine setsNoWidth_of_reader hreader (fun hmem => ?_) h
    refine Text.not_mem_of_isIdentifier hname (c := '[') rfl ?_
    rw [String.toList_append]
    exact List.mem_append_right _ hmem

/-! ## Containers by name -/

theorem containerQuery?_of_isIdentifier (hname : isIdentifier name = true)
    (h : Text.startsWith "max-" name = false) :
    containerQuery? theme name =
      (theme.container? name).map fun width => "@container (min-width: " ++ width ++ ")" := by
  rw [Text.startsWith_eq_isSome_after?, Option.isSome_eq_false_iff, Option.isNone_iff_eq_none] at h
  rw [containerQuery?, bracketed?_of_isIdentifier hname, h]

/-- The name of a size behind `max-` is negated, and so is no minimum width. -/
theorem containerQuery?_ne_of_max (hname : isIdentifier name = true) (h : Text.startsWith "max-" name = true)
    (width : String) : containerQuery? theme name ≠ some ("@container (min-width: " ++ width ++ ")") := by
  obtain ⟨rest, hrest⟩ := Option.isSome_iff_exists.1 ((Text.startsWith_eq_isSome_after? ..).symm.trans h)
  rw [containerQuery?, bracketed?_of_isIdentifier hname, hrest]
  intro heq
  obtain ⟨width', -, heq⟩ := Option.map_eq_some_iff.1 heq
  have hchars := congrArg String.toList heq
  simp [String.toList_append] at hchars

/-! ## Selectors of one variant -/

variable {token : String} {suffix : Option String}

theorem build?_singleton (variant : String) :
    Selector.build? theme token [variant] suffix =
      (parse? theme variant).map fun effect => ((Draft.ofToken token).apply effect).finish suffix := by
  rw [Selector.build?, List.mapM_cons, List.mapM_nil]
  cases parse? theme variant <;> rfl

/-- Nothing but a media query gives the selector without variants a media query and leaves the rest. -/
theorem build?_eq_media_iff {variant : String} {query : MediaQuery} :
    Selector.build? theme token [variant] suffix =
        some { (Draft.ofToken token).finish suffix with media := some query } ↔
      parse? theme variant = some (media query) := by
  rw [build?_singleton, Option.map_eq_some_iff]
  constructor
  · rintro ⟨effect, heffect, h⟩
    have hmedia := congrArg Selector.media h
    cases effect <;> cases hmedia
    exact heffect
  · rintro h
    exact ⟨_, h, rfl⟩

/-- The same for container queries. -/
theorem build?_eq_container_iff {variant query : String} :
    Selector.build? theme token [variant] suffix =
        some { (Draft.ofToken token).finish suffix with container := some query } ↔
      parse? theme variant = some (container query) := by
  rw [build?_singleton, Option.map_eq_some_iff]
  constructor
  · rintro ⟨effect, heffect, h⟩
    have hcontainer := congrArg Selector.container h
    cases effect <;> cases hcontainer
    exact heffect
  · rintro h
    exact ⟨_, h, rfl⟩

/-! ## Widths by name -/

/-- **Breakpoints and containers answer to names that are free.** Under a checked theme and for every token and suffix,
the name of a breakpoint puts the rule under the query for its minimum width, and changes nothing else, exactly if it
is not built in. The name of a container behind an at-sign does the same for containers exactly if it does not begin
with `max-`. -/
theorem widths_answer_to_free_names (hvalid : theme.validate = .ok ()) (token : String) (suffix : Option String)
    (name width : String) :
    (theme.breakpoints.get? name = some width →
      (Selector.build? theme token [name] suffix =
          some { (Draft.ofToken token).finish suffix with
            media := some ⟨"@media (min-width: " ++ width ++ ")", mediaPriority name⟩ } ↔
        ¬ IsBuiltIn name)) ∧
    (theme.containers.get? name = some width →
      (Selector.build? theme token ["@" ++ name] suffix =
          some { (Draft.ofToken token).finish suffix with
            container := some ("@container (min-width: " ++ width ++ ")") } ↔
        Text.startsWith "max-" name = false)) := by
  refine ⟨fun hwidth => ?_, fun hwidth => ?_⟩
  · have hname := (Theme.isChecked_of_mem hvalid .breakpoints (OrderedMap.get?_eq_some_iff.1 hwidth)).1
    have hbreakpoint : theme.breakpoint? name = some width := by
      rw [Theme.breakpoint?, hwidth]
      rfl
    rw [build?_eq_media_iff]
    constructor
    · intro h hbuiltIn
      exact setsNoWidth_of_isBuiltIn hname hbuiltIn h width (mediaPriority name) rfl
    · intro h
      rw [parse?_of_not_isBuiltIn hname h, hbreakpoint]
      rfl
  · have hname := (Theme.isChecked_of_mem hvalid .containers (OrderedMap.get?_eq_some_iff.1 hwidth)).1
    have hcontainer : theme.container? name = some width := by
      rw [Theme.container?, hwidth]
      rfl
    have hreader : ("@", fun size => (containerQuery? theme size).map container) ∈ readers theme := by
      simp [readers]
    rw [build?_eq_container_iff, parse?_of_mem_readers hreader]
    constructor
    · intro h
      obtain ⟨query, hquery, heffect⟩ := Option.map_eq_some_iff.1 h
      obtain rfl := container.inj heffect
      rw [Bool.eq_false_iff]
      exact fun hmax => containerQuery?_ne_of_max hname hmax width hquery
    · intro h
      rw [containerQuery?_of_isIdentifier hname h, hcontainer]
      rfl

/-- A theme with a breakpoint and a container of its own, and with one of each whose name is taken. -/
def widthTheme : Theme where
  breakpoints := OrderedMap.ofList [("tablet", "50rem"), ("hover", "60rem")]
  containers := OrderedMap.ofList [("card", "22rem"), ("max-card", "44rem")]

/-- The breakpoint `tablet` and the container `card` are reached by their names. -/
theorem tablet_and_card_are_reached :
    widthTheme.validate = .ok () ∧
    Selector.build? widthTheme "tablet:flex" ["tablet"] none =
      some ⟨".tablet\\:flex", some ⟨"@media (min-width: 50rem)", 7⟩, none⟩ ∧
    Selector.build? widthTheme "@card:flex" ["@card"] none =
      some ⟨".\\@card\\:flex", none, some "@container (min-width: 22rem)"⟩ := by
  have hvalid : widthTheme.validate = .ok () := by decide
  refine ⟨hvalid, ?_, ?_⟩
  · exact ((widths_answer_to_free_names hvalid "tablet:flex" none "tablet" "50rem").1 (by decide)).2 (by decide)
  · exact ((widths_answer_to_free_names hvalid "@card:flex" none "card" "22rem").2 (by decide)).2 (by decide)

/-- **Names that are taken keep their meaning.** The breakpoint `hover` is not reached by its name, which is that of a
pseudo-class, and the container `max-card` is not, because `max-` negates. -/
theorem hover_is_no_breakpoint :
    Selector.build? widthTheme "hover:flex" ["hover"] none = some ⟨".hover\\:flex:hover", none, none⟩ ∧
    Selector.build? widthTheme "@max-card:flex" ["@max-card"] none =
      some ⟨".\\@max-card\\:flex", none, some "@container not (min-width: 22rem)"⟩ ∧
    (¬ ∀ (theme : Theme) (token name width : String), theme.validate = .ok () →
      theme.breakpoints.get? name = some width →
        (Selector.build? theme token [name] none).bind Selector.media =
          some ⟨"@media (min-width: " ++ width ++ ")", mediaPriority name⟩) ∧
    ¬ ∀ (theme : Theme) (token name width : String), theme.validate = .ok () →
      theme.containers.get? name = some width →
        (Selector.build? theme token ["@" ++ name] none).bind Selector.container =
          some ("@container (min-width: " ++ width ++ ")") := by
  have hvalid : widthTheme.validate = .ok () := by decide
  have hhover : Selector.build? widthTheme "hover:flex" ["hover"] none =
      some ⟨".hover\\:flex:hover", none, none⟩ := by decide
  have hmax : Selector.build? widthTheme "@max-card:flex" ["@max-card"] none =
      some ⟨".\\@max-card\\:flex", none, some "@container not (min-width: 22rem)"⟩ := by decide
  refine ⟨hhover, hmax, fun hall => ?_, fun hall => ?_⟩
  · have h := hall widthTheme "hover:flex" "hover" "60rem" hvalid (by decide)
    rw [hhover] at h
    cases h
  · have h := hall widthTheme "@max-card:flex" "max-card" "44rem" hvalid (by decide)
    revert h
    decide

end AtomicCss.Variant
