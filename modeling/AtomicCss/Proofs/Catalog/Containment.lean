import AtomicCss.Proofs.Catalog.Entries
import AtomicCss.Proofs.Dynamic.Containment
import AtomicCss.Proofs.Trie.Refinement

/-!
# The utilities of the catalog stay inside

Everything that the catalog lists is fixed, so it could be checked entry by entry. The large families are
made of a few texts in many combinations, though; for them the texts are checked and the combinations
proved.

## The architecture

* **`Utility.IsContained`** — a utility whose declarations and whose suffix stay inside.
* **`listed_pass`** — the families that are lists: one sweep over all entries.
* **`isContained_of_mem_spacing`**, **`isContained_of_mem_color`** — the families that are combinations.
* **`isContained_of_search`** — what a look-up in the standard catalog finds.
-/

namespace AtomicCss

open Text (isIdentifier breaksOut isAsciiName isAsciiClean)

/-! ## Utilities -/

/-- The declarations of a utility stay inside, and what it appends to a selector holds no delimiter. -/
structure Utility.IsContained (utility : Utility) : Prop where
  declarations : ∀ d ∈ utility.declarations, d.IsContained
  /-- The suffix of the selector holds no delimiter. -/
  suffix : breaksOut (utility.suffix.getD "") = false

/-- Whether a single property is an identifier with a clean value, told from the bytes. -/
def Declaration.passes : Declaration → Bool
  | property name value => isAsciiName name && isAsciiClean value
  | supports _ _ => false

/-- Whether a utility sets clean properties and appends nothing to the selector, told from the bytes. -/
def Utility.passes (utility : Utility) : Bool :=
  utility.declarations.all Declaration.passes && utility.suffix.isNone

/-- The byte test for utilities is sound. -/
theorem Utility.isContained_of_passes {utility : Utility} (h : utility.passes) :
    utility.IsContained := by
  rw [Utility.passes, Bool.and_eq_true, Option.isNone_iff_eq_none] at h
  refine ⟨fun d hd => ?_, by rw [h.2]; rfl⟩
  have hpasses := List.all_eq_true.1 h.1 d hd
  cases d with
  | property name value =>
    rw [Declaration.passes, Bool.and_eq_true] at hpasses
    exact ⟨Text.isIdentifier_of_isAsciiName hpasses.1, Text.breaksOut_of_isAsciiClean hpasses.2⟩
  | supports condition properties => cases hpasses

namespace Catalog

/-- A utility that sets several identifiers to a value without delimiters stays inside. -/
theorem isContained_entryOfEach {name value : String} {properties : List String}
    (hproperties : ∀ property ∈ properties, isIdentifier property = true)
    (hvalue : breaksOut value = false) : (entryOfEach name properties value).2.IsContained :=
  ⟨Declaration.isContained_each hproperties hvalue, rfl⟩

theorem isContained_scaleEntries {family : String} {properties : List String}
    {table : List (String × String)} (hproperties : ∀ property ∈ properties, isIdentifier property = true)
    (htable : ∀ row ∈ table, breaksOut row.2 = false) :
    ∀ e ∈ scaleEntries family properties table, e.2.IsContained := by
  intro e he
  obtain ⟨row, hrow, rfl⟩ := List.mem_map.1 he
  exact isContained_entryOfEach hproperties (htable row hrow)

/-! ## Families that are lists -/

theorem listed_pass : listed.all fun e => e.2.passes := by decide +kernel

/-! ## Spacing -/

namespace Spacing

/-- The values of the spacing utilities, the parts that values are made of, and the suffix. -/
def values : List String :=
  steps ++ fractions.map Prod.snd ++ ["px", "1px", "-1px", "auto", "100%", "-100%", betweenChildren]

theorem values_pass : values.all isAsciiClean := by decide +kernel

theorem breaksOut_of_mem_values {value : String} (h : value ∈ values) : breaksOut value = false :=
  Text.breaksOut_of_isAsciiClean (List.all_eq_true.1 values_pass value h)

theorem breaksOut_signed {value : String} (h : value ∈ values) (negative : Bool) :
    breaksOut (Dynamic.signText negative ++ value) = false := by
  rw [Text.breaksOut_append, Dynamic.breaksOut_signText, breaksOut_of_mem_values h]
  rfl

theorem words_pass : ∀ row ∈ words, row.2 ∈ values := by decide

theorem margins_pass : ["margin-inline-end", "margin-block-end"].all isIdentifier = true := by decide

/-- **The spacing utilities stay inside.** The space between children is the one utility with a suffix. -/
theorem isContained_of_mem_spacing : ∀ e ∈ entries, e.2.IsContained := by
  intro e he
  have hsteps : ∀ step ∈ steps, step ∈ values := fun step hstep => by simp [values, hstep]
  cases lists_of_mem he with
  | @step family hfamily negative hsign step hstep =>
    exact isContained_entryOfEach (Dynamic.isIdentifier_of_mem_families hfamily)
      (Dynamic.breaksOut_spacingValue (breaksOut_signed (hsteps step hstep) negative))
  | @word family hfamily negative row hrow =>
    exact isContained_entryOfEach (Dynamic.isIdentifier_of_mem_families hfamily)
      (breaksOut_signed (words_pass row hrow) negative)
  | @between axis property hrow step hstep =>
    have hproperty : isIdentifier property = true := by
      refine List.all_eq_true.1 margins_pass property ?_
      rcases List.mem_pair.1 hrow with hrow | hrow
      · simp [(Prod.mk.inj hrow).2]
      · simp [(Prod.mk.inj hrow).2]
    refine ⟨List.forall_mem_singleton.2 ⟨hproperty, ?_⟩, breaksOut_of_mem_values (by simp [values])⟩
    split
    · exact breaksOut_of_mem_values (by simp [values])
    · rename_i hpixel
      have hmem : step ∈ steps := by simpa [hpixel] using hstep
      exact Dynamic.breaksOut_spacingValue (breaksOut_of_mem_values (hsteps step hmem))

end Spacing

/-! ## Colors -/

/-- **The color utilities stay inside**: every color family with every color of the palette. -/
theorem isContained_of_mem_color : ∀ e ∈ Color.entries, e.2.IsContained := by
  intro e he
  obtain ⟨⟨family, properties⟩, hfamily, he⟩ := List.mem_flatMap.1 he
  refine isContained_scaleEntries (fun property hproperty => ?_) (fun row hrow => ?_) e he
  · refine Dynamic.isIdentifier_of_mem (List.mem_append_left _ (List.mem_append_left _ ?_))
    exact List.mem_flatMap.2 ⟨_, hfamily, hproperty⟩
  · obtain ⟨name, -, hname⟩ := List.mem_filterMap.1 hrow
    obtain ⟨value, hvalue, rfl⟩ := Option.map_eq_some_iff.1 hname
    exact Dynamic.breaksOut_of_palette hvalue

/-! ## The whole catalog -/

/-- Every entry stays inside. -/
theorem isContained_of_mem_entries : ∀ e ∈ entries, e.2.IsContained := by
  intro e he
  rcases mem_entries_iff.1 he with he | he | he
  · exact Utility.isContained_of_passes (List.all_eq_true.1 listed_pass e he)
  · exact Spacing.isContained_of_mem_spacing e he
  · exact isContained_of_mem_color e he

/-- The catalog has the names that are listed. -/
theorem isSome_search_iff (name : String) : (standard.search name).isSome ↔ name ∈ entries.map Prod.fst :=
  Trie.isSome_search_ofList entries name

/-- **What a look-up finds stays inside**: it was listed. -/
theorem isContained_of_search {name : String} {utility : Utility}
    (h : standard.search name = some utility) : utility.IsContained :=
  isContained_of_mem_entries (name, utility) (Trie.mem_of_search_ofList h)

end Catalog

end AtomicCss
