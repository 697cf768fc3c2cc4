import AtomicCss.Catalog
import AtomicCss.Dynamic.Step

/-!
# How the entries of the catalog are made

Most families of the catalog are lists that can be swept. The two large ones, the spacing utilities and the color
utilities, are made of a few texts in many combinations, and are told by their parts.

## The architecture

* **`mem_entries_iff`** — the families that are lists, and the two that are combinations.
* **`Spacing.Lists`** — the shapes that an entry of the spacing utilities can have.
* **`Spacing.lists_of_mem`** — there are no others.
* **`mem_listed_of_dash_not_mem`** — a name without a dash belongs to a list.
-/

namespace AtomicCss.Catalog

/-! ## Families that are lists -/

/-- The entries of the families that are lists. -/
def listed : List Entry :=
  Layout.entries ++ Flexbox.entries ++ Sizing.entries ++ Typography.entries ++ Effects.entries ++
    Motion.entries ++ Interactivity.entries

theorem mem_entries_iff {e : Entry} :
    e ∈ entries ↔ e ∈ listed ∨ e ∈ Spacing.entries ∨ e ∈ Color.entries := by
  simp only [entries, listed, List.mem_append]
  grind

/-! ## Spacing utilities -/

namespace Spacing

open AtomicCss.Dynamic (signText)

variable {e : Entry}

/-- The entry of a step of a family. -/
def stepEntry (family : Family) (negative : Bool) (step : String) : Entry :=
  entryOfEach (signText negative ++ member family.name step) family.properties
    (spacingValue (signText negative ++ step))

/-- What stands behind a family besides the steps, with its values. -/
def words : List (String × String) :=
  [("px", "1px"), ("auto", "auto"), ("full", "100%")] ++ fractions

/-- The shapes that an entry of the spacing utilities can have. -/
inductive Lists : Entry → Prop
  /-- A step of a family, which has a sign in front only if the family takes one. -/
  | step {family : Family} (hfamily : family ∈ families) {negative : Bool}
      (hsign : negative = true → family.signed = true) {step : String} (hstep : step ∈ steps) :
      Lists (stepEntry family negative step)
  /-- One pixel, a keyword or a fraction. -/
  | word {family : Family} (hfamily : family ∈ families) (negative : Bool) {row : String × String}
      (hrow : row ∈ words) :
      Lists (entryOfEach (signText negative ++ member family.name row.1) family.properties (signText negative ++ row.2))
  /-- The space between children. -/
  | between {axis property : String} (hrow : (axis, property) ∈ [("x", "margin-inline-end"), ("y", "margin-block-end")])
      {step : String} (hstep : step ∈ steps ++ ["px"]) :
      Lists (member "space" (member axis step),
        { declarations := [.property property (if step = "px" then "1px" else spacingValue step)],
          suffix := some betweenChildren })

/-- The margins and the insets are families. -/
theorem names_found : ∀ name ∈ marginNames ++ insetNames, ∃ family ∈ families,
    name = family.name ∧ propertiesOf name = family.properties := by
  decide

variable {family : Family}

/-- A word behind a family, with its value. -/
theorem lists_word (hfamily : family ∈ families) {name : String} (hname : name = family.name) {properties : List String}
    (hproperties : properties = family.properties) {word value : String} (hrow : (word, value) ∈ words) :
    Lists (entryOfEach (member name word) properties value) ∧
      Lists (entryOfEach (negate (member name word)) properties (negate value)) := by
  subst hname hproperties
  have hplain := Lists.word hfamily false hrow
  have hnegated := Lists.word hfamily true hrow
  rw [signText, if_neg (by decide), String.empty_append, String.empty_append] at hplain
  exact ⟨hplain, hnegated⟩

theorem lists_of_mem_familyEntries (hfamily : family ∈ families) (he : e ∈ familyEntries family) : Lists e := by
  have hpixel := lists_word hfamily rfl rfl (show ("px", "1px") ∈ words by decide)
  simp only [familyEntries, List.mem_append, or_assoc] at he
  rcases he with he | he | he
  · obtain ⟨step, hstep, he⟩ := List.mem_flatMap.1 he
    rcases List.mem_cons.1 he with rfl | he
    · have hplain : Lists (stepEntry family false step) :=
        .step hfamily (by simp) hstep
      rwa [stepEntry, signText, if_neg (by decide), String.empty_append, String.empty_append] at hplain
    · split at he
      · rename_i hsigned
        obtain rfl := List.mem_singleton.1 he
        have hnegated : Lists (stepEntry family true step) :=
          .step hfamily (fun _ => (Bool.and_eq_true_iff.1 hsigned).1) hstep
        exact hnegated
      · cases he
  · obtain rfl := List.mem_singleton.1 he
    exact hpixel.1
  · split at he
    · obtain rfl := List.mem_singleton.1 he
      exact hpixel.2
    · cases he

theorem lists_of_mem_insetEntries {name : String} (hname : name ∈ insetNames) (he : e ∈ insetEntries name) :
    Lists e := by
  obtain ⟨family, hfamily, hname, hproperties⟩ := names_found name (List.mem_append_right _ hname)
  rcases List.mem_append.1 he with he | he
  · simp only [List.mem_cons, List.not_mem_nil, or_false] at he
    have hfull := lists_word hfamily hname hproperties (show ("full", "100%") ∈ words by decide)
    rcases he with rfl | rfl | rfl
    · exact (lists_word hfamily hname hproperties (by decide)).1
    · exact hfull.1
    · exact hfull.2
  · obtain ⟨row, hrow, he⟩ := List.mem_flatMap.1 he
    have hword := lists_word hfamily hname hproperties (List.mem_append_right _ hrow)
    simp only [List.mem_cons, List.not_mem_nil, or_false] at he
    rcases he with rfl | rfl
    · exact hword.1
    · exact hword.2

/-- **An entry of the spacing utilities has one of the shapes.** -/
theorem lists_of_mem (he : e ∈ entries) : Lists e := by
  simp only [entries, List.mem_append, or_assoc] at he
  rcases he with he | he | he | he
  · obtain ⟨family, hfamily, he⟩ := List.mem_flatMap.1 he
    exact lists_of_mem_familyEntries hfamily he
  · obtain ⟨name, hname, rfl⟩ := List.mem_map.1 he
    obtain ⟨family, hfamily, hname, hproperties⟩ := names_found name (List.mem_append_left _ hname)
    exact (lists_word hfamily hname hproperties (by decide)).1
  · obtain ⟨name, hname, he⟩ := List.mem_flatMap.1 he
    exact lists_of_mem_insetEntries hname he
  · obtain ⟨step, hstep, he⟩ := List.mem_flatMap.1 he
    obtain ⟨⟨axis, property⟩, hrow, rfl⟩ := List.mem_map.1 he
    have hname : "space-" ++ axis ++ "-" ++ step = member "space" (member axis step) := by
      rw [member, member, show "space-" = "space" ++ "-" from rfl]
      simp only [String.append_assoc]
    show Lists ("space-" ++ axis ++ "-" ++ step, _)
    rw [hname]
    exact .between hrow hstep

end Spacing

/-! ## Names without a dash -/

theorem dash_mem_member (family name : String) : '-' ∈ (member family name).toList := by
  simp [member]

/-- **A name without a dash is one of a list**, since a combination joins its parts by a dash. -/
theorem mem_listed_of_dash_not_mem {e : Entry} (he : e ∈ entries) (hdash : '-' ∉ e.1.toList) : e ∈ listed := by
  rcases mem_entries_iff.1 he with he | he | he
  · exact he
  · refine absurd ?_ hdash
    have hsigned (sign family name : String) : '-' ∈ (sign ++ member family name).toList := by
      rw [String.toList_append]
      exact List.mem_append_right _ (dash_mem_member family name)
    cases Spacing.lists_of_mem he with
    | step hfamily hsign hstep => exact hsigned ..
    | word hfamily negative hrow => exact hsigned ..
    | between hrow hstep => exact dash_mem_member ..
  · refine absurd ?_ hdash
    obtain ⟨row, -, he⟩ := List.mem_flatMap.1 he
    obtain ⟨color, -, rfl⟩ := List.mem_map.1 he
    exact dash_mem_member ..

end AtomicCss.Catalog
