import AtomicCss.Color.Palette
import AtomicCss.Proofs.Text.Delimiter
import AtomicCss.Proofs.Theme.Containment
import AtomicCss.Theme.Layer
import Mathlib.Data.List.Nodup

/-!
# The three lists of colors

What a color is, is written down three times: as the test that `resolve?` makes of a name, as the list of all
names, and as the map of the default theme. The test takes a name apart at its last dash, the list and the map put
the names together from families and shades. A name that only one of them knows would be a utility without a color,
or a color without a utility.

## The architecture

* **`shadeName_inj`** — no shade has a dash, so the last dash of a shade's name is the one that joins it.
* **`isShade_iff`** — the test finds the names that are put together, and no others.
* **`nodup_allNames`** — no name is listed twice: the shades of the families, the single colors and the keywords
  are apart.
* **`keys_defaults`** — the map has the names of the list, in their order.
* **`resolve?_eq_some_iff`** — a name comes to its keyword's value, or to its reference if the theme has it.
* **`color_definitions_agree`** — all of it together.
-/

namespace AtomicCss.Palette

variable {name value family shade : String}

/-! ## The tables -/

theorem nodup_families : (families.map Prod.fst).Nodup := by decide

theorem nodup_shades : shades.Nodup := by decide

theorem nodup_named : (named.map Prod.fst).Nodup := by decide

theorem nodup_keywords : (keywords.map Prod.fst).Nodup := by decide

/-- Every family has a value for each shade. -/
theorem length_values : ∀ entry ∈ families, shades.length ≤ entry.2.length := by decide

theorem not_mem_of_mem_shades : ∀ shade ∈ shades, '-' ∉ shade.toList := by decide

/-- The single colors and the keywords are no shades, and no keyword is a single color. -/
theorem apart_of_mem_tables :
    (∀ name ∈ named.map Prod.fst, isShade name = false) ∧
      ∀ name ∈ keywords.map Prod.fst, isShade name = false ∧ name ∉ named.map Prod.fst := by
  decide

/-! ## Shades -/

theorem cutLast?_shadeName (hshade : shade ∈ shades) :
    Text.cutLast? '-' (shadeName family shade) = some (family, shade) :=
  Text.cutLast?_append (not_mem_of_mem_shades shade hshade)

theorem shadeName_inj {family' shade' : String} (hshade : shade ∈ shades) (hshade' : shade' ∈ shades)
    (h : shadeName family shade = shadeName family' shade') : family = family' ∧ shade = shade' := by
  have hcut : Text.cutLast? '-' (shadeName family' shade') = some (family, shade) :=
    h ▸ cutLast?_shadeName hshade
  rw [cutLast?_shadeName hshade'] at hcut
  cases hcut
  exact ⟨rfl, rfl⟩

/-- **The test for a shade finds the names that are made of a family and a shade.** -/
theorem isShade_iff :
    isShade name = true ↔ ∃ family ∈ families.map Prod.fst, ∃ shade ∈ shades, name = shadeName family shade := by
  constructor
  · intro h
    unfold isShade at h
    split at h
    · rename_i family shade hcut
      obtain ⟨hfamily, hshade⟩ := Bool.and_eq_true_iff.1 h
      obtain ⟨entry, hentry, hname⟩ := List.any_eq_true.1 hfamily
      exact ⟨family, List.mem_map.2 ⟨entry, hentry, beq_iff_eq.1 hname⟩, shade, List.contains_iff_mem.1 hshade,
        Text.eq_append_of_cutLast? hcut⟩
    · cases h
  · rintro ⟨family, hfamily, shade, hshade, rfl⟩
    obtain ⟨entry, hentry, rfl⟩ := List.mem_map.1 hfamily
    have hknown : families.any (fun f => f.1 == entry.1) = true :=
      List.any_eq_true.2 ⟨entry, hentry, beq_self_eq_true _⟩
    rw [isShade, cutLast?_shadeName hshade]
    exact Bool.and_eq_true_iff.2 ⟨hknown, List.contains_iff_mem.2 hshade⟩

/-! ## Names -/

/-- The names of the theme are the shades and the single colors. -/
theorem mem_themeNames_iff : name ∈ themeNames ↔ isShade name = true ∨ name ∈ named.map Prod.fst := by
  rw [themeNames, List.mem_append, isShade_iff]
  refine or_congr_left ⟨fun h => ?_, ?_⟩
  · obtain ⟨entry, hentry, hname⟩ := List.mem_flatMap.1 h
    obtain ⟨shade, hshade, rfl⟩ := List.mem_map.1 hname
    exact ⟨entry.1, List.mem_map.2 ⟨entry, hentry, rfl⟩, shade, hshade, rfl⟩
  · rintro ⟨family, hfamily, shade, hshade, rfl⟩
    obtain ⟨entry, hentry, rfl⟩ := List.mem_map.1 hfamily
    exact List.mem_flatMap.2 ⟨entry, hentry, List.mem_map.2 ⟨shade, hshade, rfl⟩⟩

/-- No shade is listed twice: a name tells its family and its shade. -/
theorem nodup_shadeNames : (families.flatMap fun (family, _) => shades.map (shadeName family)).Nodup := by
  refine List.nodup_flatMap.2 ⟨fun entry _ => ?_, (List.pairwise_map.1 nodup_families).imp fun hne => ?_⟩
  · exact nodup_shades.map_on fun shade hshade shade' hshade' h => (shadeName_inj hshade hshade' h).2
  · rintro name hname hname'
    obtain ⟨shade, hshade, rfl⟩ := List.mem_map.1 hname
    obtain ⟨shade', hshade', h⟩ := List.mem_map.1 hname'
    exact hne (shadeName_inj hshade' hshade h).1.symm

theorem nodup_themeNames : themeNames.Nodup := by
  refine nodup_shadeNames.append nodup_named fun name hshades hnamed => ?_
  obtain ⟨entry, hentry, hname⟩ := List.mem_flatMap.1 hshades
  obtain ⟨shade, hshade, rfl⟩ := List.mem_map.1 hname
  have hshade : isShade (shadeName entry.1 shade) = true :=
    isShade_iff.2 ⟨entry.1, List.mem_map.2 ⟨entry, hentry, rfl⟩, shade, hshade, rfl⟩
  rw [apart_of_mem_tables.1 _ hnamed] at hshade
  cases hshade

theorem not_mem_themeNames_of_keyword (h : name ∈ keywords.map Prod.fst) : name ∉ themeNames := by
  obtain ⟨hshade, hnamed⟩ := apart_of_mem_tables.2 _ h
  rw [mem_themeNames_iff, hshade]
  rintro (h | h)
  · cases h
  · exact hnamed h

theorem nodup_allNames : allNames.Nodup :=
  nodup_themeNames.append nodup_keywords fun _ htheme hkeyword => not_mem_themeNames_of_keyword hkeyword htheme

/-! ## The default theme -/

/-- The pairs that are inserted one after the other have the names of the theme. -/
theorem map_fst_pairs :
    (families.flatMap (fun entry => (shades.zip entry.2).map fun pair => (shadeName entry.1 pair.1, pair.2)) ++
      named).map Prod.fst = themeNames := by
  rw [List.map_append, List.map_flatMap, themeNames]
  refine congrArg (· ++ named.map Prod.fst) (List.flatMap_congr fun entry hentry => ?_)
  obtain ⟨family, values⟩ := entry
  have hzip : (shades.zip values).map Prod.fst = shades := List.map_fst_zip (length_values _ hentry)
  show _ = shades.map (shadeName family)
  rw [← congrArg (List.map (shadeName family)) hzip, List.map_map, List.map_map]
  rfl

/-- **The default theme has the colors that are listed**, in their order. -/
theorem keys_defaults : defaults.keys = themeNames := by
  have hnodup := nodup_themeNames
  rw [← map_fst_pairs] at hnodup ⊢
  exact OrderedMap.keys_ofList_of_nodup hnodup

/-- A color of a theme is written to its layer. -/
theorem mem_properties_of_mem_keys (theme : Theme) (h : name ∈ theme.colors.keys) :
    ∃ value, ("--color-" ++ name, value) ∈ theme.properties := by
  obtain ⟨value, hvalue⟩ := OrderedMap.mem_keys_iff.1 h
  have hmem : ("--color-" ++ name, value) ∈ theme.categoryProperties .colors :=
    List.mem_map.2 ⟨(name, value), OrderedMap.get?_eq_some_iff.1 hvalue, rfl⟩
  exact ⟨value, by simp only [Theme.properties, List.mem_append, hmem, true_or]⟩

/-! ## What a name comes to -/

theorem reference_inj {other : String} (h : reference name = reference other) : name = other :=
  (String.append_right_inj _).1 ((String.append_left_inj _).1 h)

/-- A keyword does not refer to the theme. -/
theorem ne_reference_of_mem_keywords (h : (name, value) ∈ keywords) (other : String) : value ≠ reference other := by
  have hstart : ∀ entry ∈ keywords, Text.startsWith "var(--color-" entry.2 = false := by decide
  rintro rfl
  have hreference : Text.startsWith "var(--color-" (reference other) = true :=
    Text.startsWith_iff.2 ⟨other ++ ")", String.append_assoc ..⟩
  rw [hstart _ h] at hreference
  cases hreference

/-- **A name comes to its keyword's value, or to its reference if it is a color of the theme.** -/
theorem resolve?_eq_some_iff :
    resolve? name = some value ↔ (name, value) ∈ keywords ∨ name ∈ themeNames ∧ value = reference name := by
  have htheme : (named.any (fun n => n.1 == name) || isShade name) = true ↔ name ∈ themeNames := by
    rw [mem_themeNames_iff, Bool.or_eq_true, or_comm]
    refine or_congr_right ?_
    simp only [List.any_eq_true, beq_iff_eq, List.mem_map]
  unfold resolve?
  cases hkeyword : keywords.lookup name with
  | some found =>
    have hmem : (name, found) ∈ keywords := mem_of_lookup hkeyword
    have hnot := not_mem_themeNames_of_keyword (List.mem_map.2 ⟨_, hmem, rfl⟩)
    refine ⟨fun h => .inl (Option.some.inj h ▸ hmem), ?_⟩
    rintro (h | ⟨h, -⟩)
    · exact congrArg some (Prod.mk.inj (List.inj_on_of_nodup_map nodup_keywords hmem h rfl)).2
    · exact absurd h hnot
  | none =>
    have hnot : (name, value) ∉ keywords := fun hmem =>
      by simpa using List.lookup_eq_none_iff.1 hkeyword _ hmem
    simp only [hnot, false_or, ← htheme]
    split
    · rename_i hknown
      simp only [hknown, true_and, Option.some.injEq, eq_comm]
    · rename_i hknown
      simp only [hknown, false_and, reduceCtorEq]

theorem isSome_resolve?_iff : (resolve? name).isSome = true ↔ name ∈ allNames := by
  rw [Option.isSome_iff_exists, allNames, List.mem_append]
  constructor
  · rintro ⟨value, hvalue⟩
    rcases resolve?_eq_some_iff.1 hvalue with h | ⟨h, -⟩
    · exact .inr (List.mem_map.2 ⟨_, h, rfl⟩)
    · exact .inl h
  · rintro (h | h)
    · exact ⟨_, resolve?_eq_some_iff.2 (.inr ⟨h, rfl⟩)⟩
    · obtain ⟨⟨name, value⟩, hmem, rfl⟩ := List.mem_map.1 h
      exact ⟨value, resolve?_eq_some_iff.2 (.inl hmem)⟩

/-- A reference is the name's own, and the default theme has the name. -/
theorem resolve?_eq_reference_iff {other : String} :
    resolve? name = some (reference other) ↔ other = name ∧ name ∈ defaults.keys := by
  rw [resolve?_eq_some_iff, keys_defaults]
  constructor
  · rintro (h | ⟨h, hvalue⟩)
    · exact absurd rfl (ne_reference_of_mem_keywords h other)
    · exact ⟨reference_inj hvalue, h⟩
  · rintro ⟨rfl, h⟩
    exact .inr ⟨h, rfl⟩

/-- **The definitions of the colors agree.**

* A name comes to something exactly if it is among all names.
* It comes to its own reference exactly if the default theme has a color of that name.
* All else that a name comes to is the value of the keyword with that name.
* Whatever custom property of a color a name comes to, the layer of the default theme sets it.
* No name is listed twice. -/
theorem color_definitions_agree :
    (∀ name : String,
      ((resolve? name).isSome = true ↔ name ∈ allNames) ∧
      (resolve? name = some (reference name) ↔ name ∈ defaults.keys) ∧
      (∀ value, resolve? name = some value → name ∉ defaults.keys → (name, value) ∈ keywords) ∧
      ∀ other, resolve? name = some (reference other) →
        ∃ value, ("--color-" ++ other, value) ∈ Theme.standard.properties) ∧
    allNames.Nodup := by
  refine ⟨fun name => ⟨isSome_resolve?_iff, ?_, fun value hvalue hnot => ?_, fun other hother => ?_⟩, nodup_allNames⟩
  · exact resolve?_eq_reference_iff.trans (and_iff_right rfl)
  · refine (resolve?_eq_some_iff.1 hvalue).resolve_right fun h => hnot ?_
    rw [keys_defaults]
    exact h.1
  · obtain ⟨rfl, hmem⟩ := resolve?_eq_reference_iff.1 hother
    have hcolors : Theme.standard.colors = defaults := by rw [Theme.standard]
    rw [← hcolors] at hmem
    exact mem_properties_of_mem_keys Theme.standard hmem

/-- `neutral` is a single color as well as a family, and both its names are set; `current` is a keyword. -/
theorem neutral_is_set_and_current_is_literal :
    (∃ value, ("--color-neutral", value) ∈ Theme.standard.properties) ∧
      (∃ value, ("--color-neutral-500", value) ∈ Theme.standard.properties) ∧
      ("current", "currentColor") ∈ keywords := by
  have hagree := color_definitions_agree.1
  refine ⟨(hagree "neutral").2.2.2 "neutral" (by decide), (hagree "neutral-500").2.2.2 "neutral-500" (by decide), ?_⟩
  refine (hagree "current").2.2.1 "currentColor" (by decide) fun hmem => ?_
  have hreference := (hagree "current").2.1.2 hmem
  exact absurd hreference (by decide)

end AtomicCss.Palette
