import AtomicCss.Proofs.Theme.Containment
import AtomicCss.Theme.Layer

/-!
# The layer of a checked theme

The check of a theme and its layer walk over the same entries, but each of them has a list of its own to walk
along, and the lists differ in their order. An entry that is written but not checked could close the layer. This
module says that all that is written is checked, and that the only delimiters in the layer of a checked theme are
the ones that the layer puts there.

## The architecture

* **`mem_properties`** — what is written comes from a category, the spacing unit or the type scale.
* **`IsSound.breaksOut_properties`** — so nothing that is written of a checked theme holds a delimiter.
* **`count_layer`** — the delimiters of a layer: those around the properties, and a semicolon for each.
* **`check_keeps_layer_closed`** — both together.
-/

namespace AtomicCss.Theme

open Text (breaksOut isDelimiter)

variable {theme : Theme}

/-! ## What is written -/

theorem mem_properties {p : String × String} (h : p ∈ theme.properties) :
    (∃ category, p ∈ theme.categoryProperties category) ∨
      (∃ value, theme.spacing = some value ∧ p = ("--spacing", value)) ∨ p ∈ theme.textProperties := by
  simp only [properties, List.mem_append, List.mem_flatMap, List.mem_map] at h
  rcases h with (((h | ⟨value, hvalue, rfl⟩) | h) | h) | ⟨category, -, h⟩
  · exact .inl ⟨.colors, h⟩
  · exact .inr (.inl ⟨value, Option.mem_toList.1 hvalue, rfl⟩)
  · exact .inl ⟨.radius, h⟩
  · exact .inr (.inr h)
  · exact .inl ⟨category, h⟩

/-- **Nothing that is written of a sound theme holds a delimiter**: the fixed parts of the names have none, the keys
and the values are checked. -/
theorem IsSound.breaksOut_properties (h : theme.IsSound) :
    ∀ p ∈ theme.properties, breaksOut p.1 = false ∧ breaksOut p.2 = false := by
  have hkey {key : String} (hkey : IsKey key) : breaksOut key = false :=
    Text.not_breaksOut_of_isIdentifier (isIdentifier_iff_isKey.2 hkey)
  have hvalue {value : String} (hvalue : IsValue value) : breaksOut value = false :=
    (isValue_iff.1 hvalue).2
  have hunit : breaksOut "--spacing" = false := by decide
  intro p hp
  rcases mem_properties hp with ⟨category, hp⟩ | ⟨value, hspacing, rfl⟩ | hp
  · obtain ⟨⟨key, value⟩, hmem, rfl⟩ := List.mem_map.1 hp
    obtain ⟨hk, hv⟩ := h.scale category key value hmem
    have hstem : breaksOut ("--" ++ category.stem ++ "-") = false := by cases category <;> decide
    show breaksOut ("--" ++ category.stem ++ "-" ++ key) = false ∧ breaksOut value = false
    rw [Text.breaksOut_append, hstem, hkey hk]
    exact ⟨rfl, hvalue hv⟩
  · exact ⟨hunit, hvalue (h.spacing value hspacing)⟩
  · obtain ⟨⟨key, entry⟩, hmem, hp⟩ := List.mem_flatMap.1 hp
    obtain ⟨hk, hs, hl⟩ := h.text key entry hmem
    have hbefore : breaksOut "--text-" = false := by decide
    have hafter : breaksOut "--line-height" = false := by decide
    rcases List.mem_pair.1 hp with rfl | rfl
    · exact ⟨by rw [Text.breaksOut_append, hbefore, hkey hk]; rfl, hvalue hs⟩
    · exact ⟨by rw [Text.breaksOut_append, Text.breaksOut_append, hbefore, hkey hk, hafter]; rfl, hvalue hl⟩

/-! ## The delimiters of a layer -/

theorem count_of_breaksOut {s : String} (h : breaksOut s = false) {c : Char} (hc : isDelimiter c = true) :
    s.toList.count c = 0 := by
  rw [List.count_eq_zero]
  intro hmem
  have := Text.breaksOut_eq_false_iff.1 h c hmem
  rw [hc] at this
  cases this

theorem count_lines {c : Char} (hc : isDelimiter c = true) {properties : List (String × String)}
    (h : ∀ p ∈ properties, breaksOut p.1 = false ∧ breaksOut p.2 = false) :
    (String.join (properties.map fun (name, value) => "    " ++ name ++ ": " ++ value ++ ";\n")).toList.count c =
      properties.length * (";\n".toList.count c) := by
  have hindent : "    ".toList.count c = 0 := count_of_breaksOut (by decide) hc
  have hcolon : ": ".toList.count c = 0 := count_of_breaksOut (by decide) hc
  induction properties with
  | nil => simp
  | cons p properties ih =>
    obtain ⟨name, value⟩ := p
    obtain ⟨hname, hvalue⟩ := h _ List.mem_cons_self
    have hrest := ih fun p hp => h p (List.mem_cons_of_mem _ hp)
    have hname : name.toList.count c = 0 := count_of_breaksOut hname hc
    have hvalue : value.toList.count c = 0 := count_of_breaksOut hvalue hc
    rw [List.map_cons, String.join_cons, String.toList_append, List.count_append, hrest]
    simp only [String.toList_append, List.count_append, hindent, hname, hcolon, hvalue, List.length_cons]
    rw [Nat.succ_mul]
    omega

/-- A layer has the delimiters around its properties, and those behind each property. -/
theorem count_layer {c : Char} (hc : isDelimiter c = true) (hne : theme.properties ≠ [])
    (h : ∀ p ∈ theme.properties, breaksOut p.1 = false ∧ breaksOut p.2 = false) :
    theme.layer.toList.count c = "@layer theme \x7b\n  :root \x7b\n".toList.count c +
      theme.properties.length * (";\n".toList.count c) + "  \x7d\n\x7d\n".toList.count c := by
  rw [layer, if_neg (by rwa [List.isEmpty_iff])]
  rw [String.toList_append, String.toList_append, List.count_append, List.count_append, count_lines hc h]

/-- **A theme that passes its check cannot close its layer.**

* A theme passes exactly if, in the ten categories and in the type scale, every key is a non-empty run of ASCII
  letters, digits, `-` and `_`, and every value — sizes, line heights and the spacing unit among them — holds a
  character that is not blank, and neither a semicolon nor a brace.
* The layer of a theme that passes is empty if there is nothing to write. Otherwise it has two opening braces, two
  closing ones, and one semicolon for each property. -/
theorem check_keeps_layer_closed (theme : Theme) :
    (theme.validate = .ok () ↔
      (∀ category : Category, ∀ key value, (key, value) ∈ (theme.scale category).entries →
        IsKey key ∧ IsValue value) ∧
      (∀ key entry, (key, entry) ∈ theme.text.entries →
        IsKey key ∧ IsValue entry.size ∧ IsValue entry.lineHeight) ∧
      ∀ value, theme.spacing = some value → IsValue value) ∧
    (theme.validate = .ok () →
      (theme.properties = [] → theme.layer = "") ∧
      (theme.properties ≠ [] → theme.layer.toList.count '\x7b' = 2 ∧ theme.layer.toList.count '\x7d' = 2 ∧
        theme.layer.toList.count ';' = theme.properties.length)) := by
  refine ⟨validate_iff_isSound.trans ⟨fun h => ⟨h.scale, h.text, h.spacing⟩, fun ⟨h, h', h''⟩ => ⟨h, h', h''⟩⟩, ?_⟩
  intro hvalid
  have hclean := (validate_iff_isSound.1 hvalid).breaksOut_properties
  constructor
  · intro hempty
    rw [layer, if_pos (by rw [hempty]; rfl)]
  · intro hne
    refine ⟨?_, ?_, ?_⟩
    · exact count_layer (by decide) hne hclean
    · exact count_layer (by decide) hne hclean
    · exact (count_layer (by decide) hne hclean).trans (by simp)

/-- A theme with a color, the spacing unit and an entry of the type scale writes four properties. -/
theorem four_properties_have_four_semicolons :
    let theme : Theme :=
      { colors := OrderedMap.ofList [("ink", "#111")], spacing := some "1px"
        text := OrderedMap.ofList [("sm", ⟨"14px", "1.5"⟩)] }
    theme.validate = .ok () ∧ theme.properties ≠ [] ∧ theme.layer.toList.count '\x7b' = 2 ∧
      theme.layer.toList.count ';' = 4 := by
  intro theme
  have hvalid : theme.validate = .ok () := by decide
  have hne : theme.properties ≠ [] := by decide
  have hlength : theme.properties.length = 4 := by decide
  obtain ⟨hopen, -, hsemicolon⟩ := ((check_keeps_layer_closed theme).2 hvalid).2 hne
  exact ⟨hvalid, hne, hopen, hsemicolon.trans hlength⟩

end AtomicCss.Theme
