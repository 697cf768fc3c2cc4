import AtomicCss.Theme.Layer
import AtomicCss.Theme.Validation
import Mathlib.Data.List.Nodup
import Mathlib.Data.List.Perm.Basic

/-!
# The names of custom properties

A theme writes every value to a custom property whose name is put together from a fixed beginning, the key and, for
the line heights of the type scale, a fixed end. No name is the result of two schemes but in two cases: a font may be
called like a font weight with `weight-` in front of it, and an entry of the type scale like another one with
`--line-height` behind it. Of two declarations of a custom property the latter one counts, so that one of the two
values is lost.

## The architecture

* **`Scheme`**, **`Variable`** — the thirteen ways in which a name is made, and a name by way and key.
  `map_fst_properties_perm` says that a theme writes exactly its variables.
* **`Scheme.before_cases`** — of the fixed beginnings only one is the beginning of another.
* **`Variable.name_eq_iff`** — variables of the same name are the same, or they clash in one of the two ways.
* **`nodup_propertyNames_iff`** — the names of a theme are distinct exactly if it has no clash, and then no value
  is lost. `weight_bold_is_lost` is a theme with a clash.
-/

namespace AtomicCss.Theme

/-! ## Names by scheme and key -/

/-- The ways in which names of custom properties are made. -/
inductive Scheme where
  | plain (category : Category)
  | spacing
  | size
  | lineHeight
  deriving DecidableEq

namespace Scheme

/-- The schemes in the order in which they are written. -/
def all : List Scheme :=
  [plain .colors, spacing, plain .radius, size, lineHeight, plain .fonts, plain .fontWeights, plain .breakpoints,
    plain .shadows, plain .zIndex, plain .easings, plain .durations, plain .containers]

/-- What stands in front of the key. -/
def before : Scheme → String
  | plain category => "--" ++ category.stem ++ "-"
  | spacing => "--spacing"
  | size | lineHeight => "--text-"

/-- What stands behind the key. -/
def after : Scheme → String
  | lineHeight => "--line-height"
  | _ => ""

theorem mem_all (scheme : Scheme) : scheme ∈ all := by
  rcases scheme with category | _ | _ | _
  · cases category <;> decide
  all_goals decide

theorem nodup_all : all.Nodup := by
  decide

/-- **Of the fixed beginnings only that of fonts is the beginning of another one**, that of font weights; sizes and
line heights begin alike. -/
theorem before_cases {scheme other : Scheme} (h : scheme.before.toList <+: other.before.toList) :
    scheme = other ∨ (scheme = plain .fonts ∧ other = plain .fontWeights) ∨
      (scheme = size ∧ other = lineHeight) ∨ (scheme = lineHeight ∧ other = size) := by
  have hall : ∀ scheme ∈ all, ∀ other ∈ all, scheme.before.toList <+: other.before.toList →
      scheme = other ∨ (scheme = plain .fonts ∧ other = plain .fontWeights) ∨
        (scheme = size ∧ other = lineHeight) ∨ (scheme = lineHeight ∧ other = size) := by
    decide +kernel
  exact hall scheme scheme.mem_all other other.mem_all h

end Scheme

/-- A custom property by the scheme of its name and its key; the spacing unit has no key. -/
structure Variable where
  scheme : Scheme
  key : String
  deriving DecidableEq

namespace Variable

def name (v : Variable) : String :=
  v.scheme.before ++ v.key ++ v.scheme.after

/-- Two ways in which variables come to the same name. -/
inductive Clash : Variable → Variable → Prop where
  | weight (key : String) : Clash ⟨.plain .fonts, "weight-" ++ key⟩ ⟨.plain .fontWeights, key⟩
  | lineHeight (key : String) : Clash ⟨.size, key ++ "--line-height"⟩ ⟨.lineHeight, key⟩

theorem name_plain (category : Category) (key : String) :
    name ⟨.plain category, key⟩ = Scheme.before (.plain category) ++ key :=
  String.append_empty

/-- The name of a font weight reads as that of a font. -/
theorem name_weight (key : String) :
    name ⟨.plain .fontWeights, key⟩ = Scheme.before (.plain .fonts) ++ ("weight-" ++ key) := by
  have hbefore : Scheme.before (.plain .fontWeights) = Scheme.before (.plain .fonts) ++ "weight-" := by decide
  rw [name_plain, hbefore, String.append_assoc]

theorem name_size (key : String) : name ⟨.size, key⟩ = "--text-" ++ key :=
  String.append_empty

theorem name_lineHeight (key : String) : name ⟨.lineHeight, key⟩ = "--text-" ++ (key ++ "--line-height") :=
  String.append_assoc

variable {v w : Variable}

theorem Clash.name_eq (h : Clash v w) : v.name = w.name := by
  cases h with
  | weight key => rw [name_plain, name_weight]
  | lineHeight key => rw [name_size, name_lineHeight]

theorem eq_or_clash_of_isPrefix (hname : v.name = w.name)
    (hbefore : v.scheme.before.toList <+: w.scheme.before.toList) : v = w ∨ Clash v w ∨ Clash w v := by
  obtain ⟨scheme, key⟩ := v
  obtain ⟨scheme', key'⟩ := w
  rcases Scheme.before_cases hbefore with h | ⟨h, h'⟩ | ⟨h, h'⟩ | ⟨h, h'⟩
  · obtain rfl : scheme = scheme' := h
    obtain rfl : key = key' := (String.append_right_inj _).1 ((String.append_left_inj _).1 hname)
    exact .inl rfl
  · obtain rfl : scheme = .plain .fonts := h
    obtain rfl : scheme' = .plain .fontWeights := h'
    rw [name_plain, name_weight] at hname
    obtain rfl : key = "weight-" ++ key' := (String.append_right_inj _).1 hname
    exact .inr (.inl (.weight key'))
  · obtain rfl : scheme = .size := h
    obtain rfl : scheme' = .lineHeight := h'
    rw [name_size, name_lineHeight] at hname
    obtain rfl : key = key' ++ "--line-height" := (String.append_right_inj _).1 hname
    exact .inr (.inl (.lineHeight key'))
  · obtain rfl : scheme = .lineHeight := h
    obtain rfl : scheme' = .size := h'
    rw [name_size, name_lineHeight] at hname
    obtain rfl : key ++ "--line-height" = key' := (String.append_right_inj _).1 hname
    exact .inr (.inr (.lineHeight key))

/-- **Variables of the same name are the same, or they clash.** Their fixed beginnings are both beginnings of the
name, and so one of them is the beginning of the other. -/
theorem name_eq_iff : v.name = w.name ↔ v = w ∨ Clash v w ∨ Clash w v := by
  constructor
  · intro hname
    have hbegins (u : Variable) : u.scheme.before.toList <+: u.name.toList := by
      rw [name, String.append_assoc, String.toList_append]
      exact List.prefix_append _ _
    rcases List.prefix_or_prefix_of_prefix (hbegins v) (hname ▸ hbegins w) with h | h
    · exact eq_or_clash_of_isPrefix hname h
    · exact (eq_or_clash_of_isPrefix hname.symm h).imp Eq.symm Or.symm
  · rintro (rfl | h | h)
    · rfl
    · exact h.name_eq
    · exact h.name_eq.symm

end Variable

/-! ## The names of a theme -/

variable (theme : Theme)

/-- The keys for which a theme has a name of some scheme. -/
def keysOf : Scheme → List String
  | .plain category => (theme.scale category).keys
  | .spacing => theme.spacing.toList.map fun _ => ""
  | .size | .lineHeight => theme.text.keys

/-- What a theme writes, scheme after scheme. -/
def written : List Variable :=
  Scheme.all.flatMap fun scheme => (theme.keysOf scheme).map (.mk scheme)

theorem nodup_keysOf (scheme : Scheme) : (theme.keysOf scheme).Nodup := by
  cases scheme with
  | plain category => exact OrderedMap.nodup_keys _
  | spacing => cases hspacing : theme.spacing <;> simp [keysOf, hspacing]
  | size => exact OrderedMap.nodup_keys _
  | lineHeight => exact OrderedMap.nodup_keys _

variable {theme} in
theorem mem_written {v : Variable} : v ∈ theme.written ↔ v.key ∈ theme.keysOf v.scheme := by
  constructor
  · intro h
    obtain ⟨scheme, -, hv⟩ := List.mem_flatMap.1 h
    obtain ⟨key, hkey, rfl⟩ := List.mem_map.1 hv
    exact hkey
  · exact fun h => List.mem_flatMap.2 ⟨v.scheme, v.scheme.mem_all, List.mem_map.2 ⟨v.key, h, rfl⟩⟩

theorem nodup_written : theme.written.Nodup := by
  refine List.nodup_flatMap.2 ⟨fun scheme _ => (theme.nodup_keysOf scheme).map fun a b h => ?_,
    Scheme.nodup_all.imp fun hne => ?_⟩
  · exact (Variable.mk.inj h).2
  · rintro v hv hv'
    obtain ⟨key, -, rfl⟩ := List.mem_map.1 hv
    obtain ⟨key', -, h⟩ := List.mem_map.1 hv'
    exact hne (Variable.mk.inj h).1.symm

def namesOf (scheme : Scheme) : List String :=
  (theme.keysOf scheme).map fun key => Variable.name ⟨scheme, key⟩

theorem map_name_written : theme.written.map Variable.name = Scheme.all.flatMap theme.namesOf := by
  rw [written, List.map_flatMap]
  refine List.flatMap_congr fun scheme _ => ?_
  rw [namesOf, List.map_map]
  rfl

theorem map_fst_categoryProperties (category : Category) :
    (theme.categoryProperties category).map Prod.fst = theme.namesOf (.plain category) := by
  rw [categoryProperties, namesOf, keysOf, OrderedMap.keys, List.map_map, List.map_map]
  refine List.map_congr_left fun entry _ => ?_
  exact (Variable.name_plain category entry.1).symm

theorem map_fst_spacing :
    (theme.spacing.toList.map fun value => ("--spacing", value)).map Prod.fst = theme.namesOf .spacing := by
  rw [namesOf, keysOf, List.map_map, List.map_map]
  rfl

/-- Sizes and line heights are written in turn. -/
theorem map_fst_textProperties_perm :
    (theme.textProperties.map Prod.fst).Perm (theme.namesOf .size ++ theme.namesOf .lineHeight) := by
  have hturn : theme.textProperties.map Prod.fst =
      theme.text.keys.flatMap fun key => [Variable.name ⟨.size, key⟩, Variable.name ⟨.lineHeight, key⟩] := by
    rw [textProperties, OrderedMap.keys, List.map_flatMap, List.flatMap_map]
    refine List.flatMap_congr fun entry _ => ?_
    rw [Variable.name_size, Variable.name_lineHeight, ← String.append_assoc]
    rfl
  have hsize : theme.namesOf .size = theme.text.keys.map fun key => Variable.name ⟨.size, key⟩ := rfl
  have hlineHeight : theme.namesOf .lineHeight =
      theme.text.keys.flatMap fun key => [Variable.name ⟨.lineHeight, key⟩] := List.map_eq_flatMap ..
  rw [hturn, hsize, hlineHeight]
  exact (List.map_append_flatMap_perm _ _ _).symm

theorem map_fst_flatMap_categoryProperties (categories : List Category) :
    (categories.flatMap theme.categoryProperties).map Prod.fst =
      (categories.map Scheme.plain).flatMap theme.namesOf := by
  rw [List.map_flatMap, List.flatMap_map]
  exact List.flatMap_congr fun category _ => theme.map_fst_categoryProperties category

/-- **A theme writes exactly its variables.** -/
theorem map_fst_properties_perm : (theme.properties.map Prod.fst).Perm (theme.written.map Variable.name) := by
  have hall : Scheme.all.flatMap theme.namesOf = theme.namesOf (.plain .colors) ++ theme.namesOf .spacing ++
      theme.namesOf (.plain .radius) ++ (theme.namesOf .size ++ theme.namesOf .lineHeight) ++
        ([.fonts, .fontWeights, .breakpoints, .shadows, .zIndex, .easings, .durations, .containers].map
          Scheme.plain).flatMap theme.namesOf := by
    simp only [Scheme.all, List.flatMap_cons, List.append_assoc, List.map_cons]
    rfl
  rw [map_name_written, hall, properties, List.map_append, List.map_append, List.map_append, List.map_append,
    map_fst_categoryProperties, map_fst_spacing, map_fst_categoryProperties, map_fst_flatMap_categoryProperties]
  exact (theme.map_fst_textProperties_perm.append_left _).append_right _

/-- The value of a custom property: of several declarations the last one counts. -/
def lastValue? (name : String) : Option String :=
  (theme.properties.reverse.find? fun p => p.1 = name).map Prod.snd

/-- If the names are distinct, no value is lost. -/
theorem lastValue?_of_nodup (h : (theme.properties.map Prod.fst).Nodup) {name value : String}
    (hmem : (name, value) ∈ theme.properties) : theme.lastValue? name = some value := by
  have hreverse : (theme.properties.reverse.map Prod.fst).Nodup := by
    rw [List.map_reverse]
    exact List.nodup_reverse.2 h
  exact OrderedMap.get?_eq_some_iff (m := ⟨theme.properties.reverse, hreverse⟩).2 (List.mem_reverse.2 hmem)

/-- Of the variables of a theme no two have the same name unless they clash. -/
theorem nodup_names_iff :
    (theme.properties.map Prod.fst).Nodup ↔
      (∀ key ∈ theme.fontWeights.keys, "weight-" ++ key ∉ theme.fonts.keys) ∧
        ∀ key ∈ theme.text.keys, key ++ "--line-height" ∉ theme.text.keys := by
  rw [theme.map_fst_properties_perm.nodup_iff, List.nodup_map_iff_inj_on theme.nodup_written]
  constructor
  · refine fun hinj => ⟨fun key hweight hfont => ?_, fun key hline hsize => ?_⟩
    · have hsame := hinj _ (mem_written.2 hfont) _ (mem_written.2 hweight) (Variable.Clash.weight key).name_eq
      cases hsame
    · have hsame := hinj _ (mem_written.2 hsize) _ (mem_written.2 hline) (Variable.Clash.lineHeight key).name_eq
      cases hsame
  · rintro ⟨hweights, hlines⟩ v hv w hw hname
    have hnot {v w : Variable} (hv : v ∈ theme.written) (hw : w ∈ theme.written) : ¬ Variable.Clash v w := by
      rintro (key | key)
      · exact hweights key (mem_written.1 hw) (mem_written.1 hv)
      · exact hlines key (mem_written.1 hw) (mem_written.1 hv)
    rcases Variable.name_eq_iff.1 hname with h | h | h
    · exact h
    · exact absurd h (hnot hv hw)
    · exact absurd h (hnot hw hv)

/-- Every entry of a plain category is written. -/
theorem mem_properties_of_scale {category : Category} {key value : String}
    (h : (theme.scale category).get? key = some value) :
    (Variable.name ⟨.plain category, key⟩, value) ∈ theme.properties := by
  have hmem : (variableName category key, value) ∈ theme.categoryProperties category :=
    List.mem_map.2 ⟨_, OrderedMap.get?_eq_some_iff.1 h, rfl⟩
  rw [Variable.name_plain]
  show (variableName category key, value) ∈ theme.properties
  cases category <;> simp [properties, hmem]

/-- Every entry of the type scale is written, its size as well as its line height. -/
theorem mem_properties_of_text {key : String} {entry : TextSize} (h : theme.text.get? key = some entry) :
    (Variable.name ⟨.size, key⟩, entry.size) ∈ theme.properties ∧
      (Variable.name ⟨.lineHeight, key⟩, entry.lineHeight) ∈ theme.properties := by
  have htext {p : String × String}
      (hp : p ∈ [("--text-" ++ key, entry.size), ("--text-" ++ key ++ "--line-height", entry.lineHeight)]) :
      p ∈ theme.properties := by
    have hmem : p ∈ theme.textProperties := List.mem_flatMap.2 ⟨_, OrderedMap.get?_eq_some_iff.1 h, hp⟩
    simp [properties, hmem]
  rw [Variable.name_size]
  exact ⟨htext List.mem_cons_self, htext (List.mem_cons_of_mem _ List.mem_cons_self)⟩

/-- A font and a font weight that clash. -/
theorem mem_properties_of_weight {key font weight : String} (hfont : theme.fonts.get? ("weight-" ++ key) = some font)
    (hweight : theme.fontWeights.get? key = some weight) :
    ("--font-weight-" ++ key, font) ∈ theme.properties ∧ ("--font-weight-" ++ key, weight) ∈ theme.properties := by
  have hname : Variable.name ⟨.plain .fontWeights, key⟩ = "--font-weight-" ++ key := Variable.name_plain ..
  rw [← hname]
  refine ⟨?_, theme.mem_properties_of_scale hweight⟩
  rw [← (Variable.Clash.weight key).name_eq]
  exact theme.mem_properties_of_scale hfont

/-- A line height and a size that clash. -/
theorem mem_properties_of_lineHeight {key : String} {entry longer : TextSize}
    (hentry : theme.text.get? key = some entry) (hlonger : theme.text.get? (key ++ "--line-height") = some longer) :
    ("--text-" ++ key ++ "--line-height", entry.lineHeight) ∈ theme.properties ∧
      ("--text-" ++ key ++ "--line-height", longer.size) ∈ theme.properties := by
  refine ⟨(theme.mem_properties_of_text hentry).2, ?_⟩
  show (Variable.name ⟨.lineHeight, key⟩, longer.size) ∈ theme.properties
  rw [← (Variable.Clash.lineHeight key).name_eq]
  exact (theme.mem_properties_of_text hlonger).1

/-- **The names of a theme are distinct exactly if it has no clash**, that is, no font is called like a font weight
with `weight-` in front and no entry of the type scale like another one with `--line-height` behind. Every custom
property then has the value that the theme gives it. Where there is a clash, both values are written to the same
custom property. -/
theorem nodup_propertyNames_iff :
    ((theme.properties.map Prod.fst).Nodup ↔
      (∀ key ∈ theme.fontWeights.keys, "weight-" ++ key ∉ theme.fonts.keys) ∧
        ∀ key ∈ theme.text.keys, key ++ "--line-height" ∉ theme.text.keys) ∧
    ((theme.properties.map Prod.fst).Nodup →
      ∀ name value, (name, value) ∈ theme.properties → theme.lastValue? name = some value) ∧
    (∀ key font weight, theme.fonts.get? ("weight-" ++ key) = some font → theme.fontWeights.get? key = some weight →
      ("--font-weight-" ++ key, font) ∈ theme.properties ∧ ("--font-weight-" ++ key, weight) ∈ theme.properties) ∧
    ∀ key entry longer, theme.text.get? key = some entry → theme.text.get? (key ++ "--line-height") = some longer →
      ("--text-" ++ key ++ "--line-height", entry.lineHeight) ∈ theme.properties ∧
        ("--text-" ++ key ++ "--line-height", longer.size) ∈ theme.properties :=
  ⟨theme.nodup_names_iff, fun h _ _ => theme.lastValue?_of_nodup h, fun _ _ _ => theme.mem_properties_of_weight,
    fun _ _ _ => theme.mem_properties_of_lineHeight⟩

/-- A font called `weight-bold` and the font weight `bold` are written to the same custom property, and the font is
lost. -/
theorem weight_bold_is_lost :
    let theme : Theme :=
      { fonts := OrderedMap.ofList [("weight-bold", "serif")], fontWeights := OrderedMap.ofList [("bold", "700")] }
    theme.validate = .ok () ∧ ¬ (theme.properties.map Prod.fst).Nodup ∧
      ("--font-weight-bold", "serif") ∈ theme.properties ∧
      theme.lastValue? "--font-weight-bold" = some "700" := by
  decide

end AtomicCss.Theme
