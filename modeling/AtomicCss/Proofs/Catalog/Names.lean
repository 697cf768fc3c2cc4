import AtomicCss.Proofs.Catalog.Containment
import AtomicCss.Proofs.Dynamic.Names

/-!
# How the names of the catalog are spelled

A minus sign in front of a listed utility stands in front of its family, never in front of a number, and all letters are
small. As for what the utilities set, the families that are lists are swept, and the large families are told by their
parts.

* **`Catalog.listed_names_pass`** — the families that are lists.
* **`Catalog.isUnnumbered_of_mem_spacing`**, **`Catalog.isUnnumbered_of_mem_color`** — the combinations.
* **`Catalog.search_of_opensNegative`** — what begins as a negative number is not in the catalog.
* **`Catalog.search_of_not_isNameLetter`** — what holds a capital letter or an underscore is not either.
-/

namespace AtomicCss

namespace Text

/-- Whether a fixed text begins with a dash and a digit, told from its bytes. -/
def isAsciiNegative (s : String) : Bool :=
  match s.toUTF8.data.toList with
  | 45 :: byte :: _ => (Char.ofNat byte.toNat).isDigit
  | _ => false

/-- The byte test for negative numbers misses none. -/
theorem isAsciiNegative_of_opensNegative {s : String} (h : opensNegative s.toList = true) :
    isAsciiNegative s = true := by
  obtain ⟨c, rest, hs, hdigit⟩ := opensNegative_iff.1 h
  have hbounds : 48 ≤ c.toNat ∧ c.toNat ≤ 57 := Char.isDigit_iff_toNat.1 hdigit
  have hbyte : String.utf8EncodeChar c = [UInt8.ofNat c.toNat] := by
    have hval : c.val.toNat = c.toNat := rfl
    unfold String.utf8EncodeChar
    simp only
    rw [if_pos (by omega)]
    rfl
  have hback : (UInt8.ofNat c.toNat).toNat = c.toNat := by
    simp
    omega
  have hbytes : s.toUTF8.data.toList = 45 :: UInt8.ofNat c.toNat :: rest.flatMap String.utf8EncodeChar := by
    rw [bytes_eq_flatMap, hs, List.flatMap_cons, List.flatMap_cons, hbyte]
    rfl
  rw [isAsciiNegative, hbytes]
  show (Char.ofNat (UInt8.ofNat c.toNat).toNat).isDigit = true
  rw [hback, Char.ofNat_toNat, hdigit]

end Text

open Text (opensNegative asciiAll)
open AtomicCss.Dynamic (signText)

namespace Catalog

/-- Whether an entry has a name that does not begin as a negative number. -/
def IsUnnumbered (entry : Entry) : Prop :=
  opensNegative entry.1.toList = false

theorem listed_names_pass : (listed.all fun e => !Text.isAsciiNegative e.1) = true := by
  decide +kernel

theorem isUnnumbered_member {family : String} (h : family ∈ Dynamic.knownFamilies) (negative : Bool) (name : String)
    (utility : Utility) : IsUnnumbered (signText negative ++ member family name, utility) := by
  have hfamily := Dynamic.not_opensNegative_of_mem h ("-" ++ name)
  unfold IsUnnumbered member
  rw [String.append_assoc]
  cases negative with
  | false => exact hfamily.1
  | true => exact hfamily.2

theorem isUnnumbered_of_mem_spacing : ∀ e ∈ Spacing.entries, IsUnnumbered e := by
  intro e he
  have hknown {family : Spacing.Family} (h : family ∈ Spacing.families) : family.name ∈ Dynamic.knownFamilies := by
    have hmem : family.name ∈ Spacing.families.map Spacing.Family.name := List.mem_map_of_mem h
    simp only [Dynamic.knownFamilies, List.mem_append, hmem, or_true, true_or]
  cases Spacing.lists_of_mem he with
  | step hfamily hsign hstep => exact isUnnumbered_member (hknown hfamily) _ _ _
  | word hfamily negative hrow => exact isUnnumbered_member (hknown hfamily) _ _ _
  | between hrow hstep =>
    -- the space between children has a name of its own
    unfold IsUnnumbered
    simp only [member, String.toList_append, List.append_assoc]
    rfl

theorem isUnnumbered_of_mem_color : ∀ e ∈ Color.entries, IsUnnumbered e := by
  intro e he
  obtain ⟨⟨family, properties⟩, hfamily, he⟩ := List.mem_flatMap.1 he
  obtain ⟨row, -, rfl⟩ := List.mem_map.1 he
  have hknown := Dynamic.mem_knownFamilies_of_mem_table (List.mem_map_of_mem hfamily)
  have hplain : IsUnnumbered (signText false ++ member family row.1, _) :=
    isUnnumbered_member hknown false row.1 default
  rwa [signText, if_neg (by decide), String.empty_append] at hplain

theorem isUnnumbered_of_mem_entries : ∀ e ∈ entries, IsUnnumbered e := by
  intro e he
  rcases mem_entries_iff.1 he with he | he | he
  · have hpass := List.all_eq_true.1 listed_names_pass e he
    rw [IsUnnumbered, ← Bool.not_eq_true]
    intro hnegative
    rw [Text.isAsciiNegative_of_opensNegative hnegative] at hpass
    cases hpass
  · exact isUnnumbered_of_mem_spacing e he
  · exact isUnnumbered_of_mem_color e he

/-- **No name of the catalog begins as a negative number.** -/
theorem search_of_opensNegative {name : String} (h : opensNegative name.toList = true) :
    standard.search name = none := by
  rw [Option.eq_none_iff_forall_ne_some]
  intro utility hutility
  have hname := isUnnumbered_of_mem_entries (name, utility) (Trie.mem_of_search_ofList hutility)
  rw [IsUnnumbered, h] at hname
  cases hname

/-! ## Letters of names -/

/-- The characters of which the names of the catalog are made. -/
def isNameLetter (c : Char) : Bool :=
  c.isLower || c.isDigit || ['-', '.', '/', '@'].contains c

/-- A text of such characters. -/
def IsSpelled (s : String) : Prop :=
  ∀ c ∈ s.toList, isNameLetter c = true

theorem IsSpelled.append {s t : String} (hs : IsSpelled s) (ht : IsSpelled t) : IsSpelled (s ++ t) := by
  unfold IsSpelled
  rw [String.toList_append]
  exact List.forall_mem_append.2 ⟨hs, ht⟩

theorem IsSpelled.of_asciiAll {s : String} (h : asciiAll isNameLetter s = true) : IsSpelled s :=
  List.all_eq_true.1 (Text.all_of_asciiAll h)

theorem IsSpelled.member {family name : String} (hfamily : IsSpelled family) (hname : IsSpelled name) :
    IsSpelled (member family name) :=
  (hfamily.append (.of_asciiAll rfl)).append hname

theorem isSpelled_signText (negative : Bool) : IsSpelled (signText negative) := by
  cases negative <;> exact .of_asciiAll rfl

/-- The names that are listed, and the parts of the others. -/
def nameParts : List String :=
  listed.map Prod.fst ++ Spacing.families.map Spacing.Family.name ++ Spacing.steps ++ Spacing.words.map Prod.fst ++
    ["x", "y"] ++ ColorFamily.table.map Prod.fst ++ Palette.allNames

theorem nameParts_pass : (nameParts.all fun s => asciiAll isNameLetter s) = true := by
  decide +kernel

theorem isSpelled_of_mem {s : String} (h : s ∈ nameParts) : IsSpelled s :=
  .of_asciiAll (List.all_eq_true.1 nameParts_pass s h)

theorem isSpelled_of_mem_spacing : ∀ e ∈ Spacing.entries, IsSpelled e.1 := by
  intro e he
  have hname {family : Spacing.Family} (h : family ∈ Spacing.families) : IsSpelled family.name :=
    isSpelled_of_mem (by simp [nameParts, List.mem_map_of_mem h])
  have hsteps {step : String} (h : step ∈ Spacing.steps) : IsSpelled step :=
    isSpelled_of_mem (by simp [nameParts, h])
  cases Spacing.lists_of_mem he with
  | @step family hfamily negative hsign step hstep =>
    exact (isSpelled_signText negative).append (.member (hname hfamily) (hsteps hstep))
  | @word family hfamily negative row hrow =>
    have hword : IsSpelled row.1 := isSpelled_of_mem (by simp [nameParts, List.mem_map_of_mem hrow])
    exact (isSpelled_signText negative).append (.member (hname hfamily) hword)
  | @between axis property hrow step hstep =>
    have haxis : IsSpelled axis := by
      rcases List.mem_pair.1 hrow with hrow | hrow <;>
        exact isSpelled_of_mem (by simp [nameParts, (Prod.mk.inj hrow).1])
    refine .member (.of_asciiAll rfl) (.member haxis ?_)
    rcases List.mem_append.1 hstep with hstep | hstep
    · exact hsteps hstep
    · obtain rfl := List.mem_singleton.1 hstep
      exact .of_asciiAll rfl

theorem isSpelled_of_mem_color : ∀ e ∈ Color.entries, IsSpelled e.1 := by
  intro e he
  obtain ⟨row, hrow, he⟩ := List.mem_flatMap.1 he
  obtain ⟨color, hcolor, rfl⟩ := List.mem_map.1 he
  obtain ⟨name, hname, hvalue⟩ := List.mem_filterMap.1 hcolor
  obtain ⟨value, -, rfl⟩ := Option.map_eq_some_iff.1 hvalue
  exact .member (isSpelled_of_mem (by simp [nameParts, List.mem_map_of_mem hrow]))
    (isSpelled_of_mem (by simp [nameParts, hname]))

/-- **The names of the catalog hold no capital letters and no underscores**, nor anything else but small letters,
digits, dashes, dots, slashes and at-signs. -/
theorem search_of_not_isNameLetter {name : String} {c : Char} (hmem : c ∈ name.toList) (hc : isNameLetter c = false) :
    standard.search name = none := by
  rw [Option.eq_none_iff_forall_ne_some]
  intro utility hutility
  have hspelled : IsSpelled name := by
    rcases mem_entries_iff.1 (Trie.mem_of_search_ofList hutility) with he | he | he
    · exact isSpelled_of_mem (by simp [nameParts, List.mem_map_of_mem he])
    · exact isSpelled_of_mem_spacing _ he
    · exact isSpelled_of_mem_color _ he
  rw [hspelled c hmem] at hc
  cases hc

end Catalog

end AtomicCss
