import AtomicCss.Proofs.Text.Delimiter
import AtomicCss.Theme.Validation

/-!
# What a checked theme promises

A theme that passes its check has identifiers for keys and values that cannot end their declaration. The
check walks over a list of entries; this module says what the walk comes to, and what that means for the look-ups.

* **`Theme.IsSound`** — what the check asks for, entry by entry; `Theme.validate_iff_isSound`.
* **`Theme.isChecked_of_mem`** — every pair of every category.
* **`Theme.isIdentifier_of_color`** — the names of colors.
* **`Theme.breaksOut_of_breakpoint?`**, **`Theme.breaksOut_of_container?`** — the widths, those of the default
  scale included.
-/

namespace AtomicCss

theorem mem_of_lookup {α β : Type} [BEq α] [LawfulBEq α] {table : List (α × β)} {key : α} {value : β}
    (h : table.lookup key = some value) : (key, value) ∈ table := by
  obtain ⟨l, r, htable, -⟩ := List.lookup_eq_some_iff.1 h
  simp [htable]

/-- What a table gives a value for is among its keys. -/
theorem mem_map_fst_of_lookup {α β : Type} [BEq α] [LawfulBEq α] {table : List (α × β)} {key : α}
    {value : β} (h : table.lookup key = some value) : key ∈ table.map Prod.fst :=
  List.mem_map.2 ⟨(key, value), mem_of_lookup h, rfl⟩

/-- What a table gives for a key is among its values. -/
theorem mem_map_snd_of_lookup {α β : Type} [BEq α] [LawfulBEq α] {table : List (α × β)} {key : α}
    {value : β} (h : table.lookup key = some value) : value ∈ table.map Prod.snd :=
  List.mem_map.2 ⟨(key, value), mem_of_lookup h, rfl⟩

/-- A table gives a value for each of its keys. -/
theorem lookup_ne_none_of_mem {α β : Type} [BEq α] [LawfulBEq α] {table : List (α × β)} {key : α}
    (h : key ∈ table.map Prod.fst) : table.lookup key ≠ none := by
  rw [ne_eq, List.lookup_eq_none_iff]
  intro hall
  obtain ⟨entry, hentry, rfl⟩ := List.mem_map.1 h
  simpa using hall entry hentry

namespace Theme

open Text (isIdentifier breaksOut isDelimiter isAsciiClean)

variable {theme : Theme}

/-! ## What the check asks for -/

/-- A key is a non-empty run of ASCII letters, digits, `-` and `_`. -/
def IsKey (key : String) : Prop :=
  key ≠ "" ∧ ∀ c ∈ key.toList, c.isAlphanum = true ∨ c = '-' ∨ c = '_'

/-- A value holds a character that is not blank, and none that ends a declaration. -/
def IsValue (value : String) : Prop :=
  (∃ c ∈ value.toList, Text.isBlank c = false) ∧ ∀ c ∈ value.toList, c ≠ ';' ∧ c ≠ '\x7b' ∧ c ≠ '\x7d'

theorem isIdentifier_iff_isKey {key : String} : isIdentifier key = true ↔ IsKey key := by
  rw [Text.isIdentifier_iff, IsKey]
  simp only [Text.isNameChar, Bool.or_eq_true, beq_iff_eq, or_assoc]

theorem isValue_iff {value : String} :
    IsValue value ↔ Text.isAllBlank value = false ∧ breaksOut value = false := by
  rw [IsValue, Text.breaksOut_eq_false_iff, Text.isAllBlank, List.all_eq_false]
  simp only [isDelimiter, Bool.or_eq_false_iff, beq_eq_false_iff_ne, and_assoc, Bool.not_eq_true]

theorem valueFault?_eq_none_iff {key value : String} :
    valueFault? key value = none ↔ IsKey key ∧ IsValue value := by
  rw [← isIdentifier_iff_isKey, isValue_iff]
  unfold valueFault?
  cases isIdentifier key <;> cases Text.isAllBlank value <;> cases breaksOut value <;> simp

/-- What the check asks of a theme: the ten categories, the type scale and the spacing unit. -/
structure IsSound (theme : Theme) : Prop where
  scale : ∀ category : Category, ∀ key value, (key, value) ∈ (theme.scale category).entries →
    IsKey key ∧ IsValue value
  text : ∀ key entry, (key, entry) ∈ theme.text.entries →
    IsKey key ∧ IsValue entry.size ∧ IsValue entry.lineHeight
  spacing : ∀ value, theme.spacing = some value → IsValue value

/-- **The check asks for this and for nothing else.** The key of the spacing unit is a fixed text, which passes. -/
theorem validate_iff_isSound : theme.validate = .ok () ↔ theme.IsSound := by
  have hunit : IsKey "spacing" := isIdentifier_iff_isKey.1 (by decide)
  rw [validate_eq_ok_iff]
  simp only [valueFault?_eq_none_iff]
  constructor
  · intro h
    refine ⟨fun category key value hmem => ?_, fun key entry hmem => ?_, fun value hvalue => ?_⟩
    · refine h ⟨category.name, key, value⟩ (List.mem_append_left _ (List.mem_append_left _ ?_))
      have hcategory : category ∈ Category.all := by cases category <;> decide
      exact List.mem_flatMap.2 ⟨category, hcategory, List.mem_map.2 ⟨(key, value), hmem, rfl⟩⟩
    · -- an entry of the type scale is checked twice, with the size and with the line height
      have hchecked (value : String) (hvalue : value = entry.size ∨ value = entry.lineHeight) :
          IsKey key ∧ IsValue value := by
        refine h ⟨"text", key, value⟩ (List.mem_append_left _ (List.mem_append_right _ ?_))
        refine List.mem_flatMap.2 ⟨(key, entry), hmem, ?_⟩
        rcases hvalue with rfl | rfl <;> simp
      exact ⟨(hchecked _ (.inl rfl)).1, (hchecked _ (.inl rfl)).2, (hchecked _ (.inr rfl)).2⟩
    · refine (h ⟨"spacing", "spacing", value⟩ (List.mem_append_right _ ?_)).2
      simp [hvalue]
  · rintro ⟨hscale, htext, hspacing⟩ e hmem
    simp only [Theme.checked, List.mem_append, List.mem_flatMap, List.mem_map] at hmem
    rcases hmem with (⟨category, -, ⟨key, value⟩, hentry, rfl⟩ | ⟨⟨key, entry⟩, hentry, hmem⟩) | ⟨value, hvalue, rfl⟩
    · exact hscale category key value hentry
    · obtain ⟨hkey, hsize, hlineHeight⟩ := htext key entry hentry
      rcases List.mem_pair.1 hmem with rfl | rfl
      · exact ⟨hkey, hsize⟩
      · exact ⟨hkey, hlineHeight⟩
    · exact ⟨hunit, hspacing value (Option.mem_toList.1 hvalue)⟩

/-- **Every pair of a checked theme** has an identifier for a key, and a value that holds something and no
delimiter. -/
theorem isChecked_of_mem (hvalid : theme.validate = .ok ()) (category : Category) {key value : String}
    (h : (key, value) ∈ (theme.scale category).entries) :
    isIdentifier key = true ∧ Text.isAllBlank value = false ∧ breaksOut value = false := by
  obtain ⟨hkey, hvalue⟩ := (validate_iff_isSound.1 hvalid).scale category key value h
  exact ⟨isIdentifier_iff_isKey.2 hkey, isValue_iff.1 hvalue⟩

/-! ## Names and widths -/

theorem isIdentifier_of_color (hvalid : theme.validate = .ok ()) {name : String}
    (h : theme.colors.contains name) : isIdentifier name = true := by
  obtain ⟨⟨key, value⟩, hentry, hkey⟩ := List.any_eq_true.1 h
  obtain rfl : key = name := by simpa using hkey
  exact (isChecked_of_mem hvalid .colors hentry).1

theorem defaultWidths_pass :
    ((Scale.breakpoints ++ Scale.containers).map Prod.snd).all isAsciiClean := by
  decide +kernel

theorem breaksOut_of_default {table : List (String × String)} {name width : String}
    (htable : table ⊆ Scale.breakpoints ++ Scale.containers) (h : table.lookup name = some width) :
    breaksOut width = false := by
  have hmem := List.map_subset Prod.snd htable (mem_map_snd_of_lookup h)
  exact Text.breaksOut_of_isAsciiClean (List.all_eq_true.1 defaultWidths_pass width hmem)

theorem breaksOut_of_breakpoint? (hvalid : theme.validate = .ok ()) {name width : String}
    (h : theme.breakpoint? name = some width) : breaksOut width = false := by
  rcases Option.or_eq_some_iff.1 h with hown | ⟨-, hdefault⟩
  · exact (isChecked_of_mem hvalid .breakpoints (OrderedMap.get?_eq_some_iff.1 hown)).2.2
  · exact breaksOut_of_default (List.subset_append_left ..) hdefault

theorem breaksOut_of_container? (hvalid : theme.validate = .ok ()) {name width : String}
    (h : theme.container? name = some width) : breaksOut width = false := by
  rcases Option.or_eq_some_iff.1 h with hown | ⟨-, hdefault⟩
  · exact (isChecked_of_mem hvalid .containers (OrderedMap.get?_eq_some_iff.1 hown)).2.2
  · exact breaksOut_of_default (List.subset_append_right ..) hdefault

end Theme

end AtomicCss
