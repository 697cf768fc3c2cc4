import AtomicCss.Proofs.Dynamic.Forms

/-!
# The family of a color

A name is cut behind the first family that it begins with. The families begin apart, with one exception: the sides of a
border stand in front of `border`, so that `border-x-brand` is about the color `brand` and not about a color `x-brand`.

## The architecture

* **`table_pairwise`** — which families begin apart.
* **`split?_member`** — the family is found again, unless it is that of the border and the name begins with a side.
* **`split?_side`** — what is found then.
* **`split?_append`** — what cannot belong to the name of a family does not disturb.
-/

namespace AtomicCss.ColorFamily

open Text (isIdentifier isNameChar)
open Catalog (member)

/-! ## Sides of a border -/

/-- The sides of a border, each of which has a family. -/
def sides : List String :=
  ["x", "y", "t", "r", "b", "l"]

/-- A name behind `border` that begins with a side. -/
def IsSideColor (family name : String) : Prop :=
  family = "border" ∧ ∃ side ∈ sides, Text.startsWith (side ++ "-") name = true

instance (family name : String) : Decidable (IsSideColor family name) :=
  inferInstanceAs (Decidable (_ ∧ _))

/-- **Of two families the later begins apart from the earlier**, or it is that of the border and the earlier is that of
a side. -/
theorem table_pairwise : table.Pairwise fun entry entry' =>
    Dynamic.beginApart entry.1 entry'.1 = true ∨
      entry'.1 = "border" ∧ ∃ side ∈ sides, entry.1 = "border" ++ "-" ++ side := by
  decide

/-- Every side has a family of its own, which sets something else than that of the border. -/
theorem sides_pass : ∀ side ∈ sides, ∃ entry ∈ table, entry.1 = "border" ++ "-" ++ side ∧ entry.1 ≠ "border" ∧
    ∀ entry' ∈ table, entry'.1 = "border" → entry'.2 ≠ entry.2 := by
  decide

/-! ## Cutting off the family -/

variable {family name : String} {properties : List String}

theorem findSome?_of_pairwise {α β : Type} {f : α → Option β} {Before : α → α → Prop} {l : List α}
    (hpairwise : l.Pairwise Before) {a : α} {b : β} (ha : a ∈ l) (hb : f a = some b)
    (hbefore : ∀ a', Before a' a → f a' = none) : l.findSome? f = some b := by
  obtain ⟨front, back, rfl⟩ := List.append_of_mem ha
  have hfront : front.findSome? f = none := List.findSome?_eq_none_iff.2 fun a' ha' =>
    hbefore a' ((List.pairwise_append.1 hpairwise).2.2 a' ha' a List.mem_cons_self)
  rw [List.findSome?_append, hfront, Option.none_or, List.findSome?_cons, hb]

/-- **The family is found again**, unless it is that of the border and the name begins with a side. -/
theorem split?_member (hfamily : (family, properties) ∈ table) (hside : ¬ IsSideColor family name) :
    split? (member family name) = some (properties, name) := by
  have hafter : Text.after? (family ++ "-") (member family name) = some name := Text.after?_eq_some_iff.2 rfl
  refine findSome?_of_pairwise table_pairwise hfamily (congrArg (Option.map _) hafter) ?_
  rintro ⟨family', properties'⟩ hbefore
  rw [Option.map_eq_none_iff, Option.eq_none_iff_forall_ne_some]
  intro rest hrest
  rw [Text.after?_eq_some_iff] at hrest
  rcases hbefore with hapart | ⟨rfl, side, hmem, heq⟩
  · have hstart : (family ++ "-").toList <+: (member family name).toList := ⟨name.toList, by simp [member]⟩
    exact Dynamic.not_prefix_of_beginApart hapart ⟨rest.toList, by rw [hrest]; simp⟩ hstart
  · refine hside ⟨rfl, side, hmem, Text.startsWith_iff.2 ⟨rest, ?_⟩⟩
    dsimp only at heq
    rw [heq] at hrest
    have hchars := congrArg String.toList hrest
    apply String.toList_injective
    simpa [member] using hchars

/-- **The family of a side is found instead**, which sets something else. -/
theorem split?_side {side : String} (hside : side ∈ sides) (hfamily : ("border", properties) ∈ table) :
    ∃ sideProperties, (member "border" side, sideProperties) ∈ table ∧ sideProperties ≠ properties ∧
      ∀ rest, split? (member "border" (side ++ "-" ++ rest)) = some (sideProperties, rest) := by
  obtain ⟨⟨family', sideProperties⟩, hmem, rfl, hne, hother⟩ := sides_pass side hside
  refine ⟨sideProperties, hmem, (hother _ hfamily rfl).symm, fun rest => ?_⟩
  have hname : member "border" (side ++ "-" ++ rest) = member ("border" ++ "-" ++ side) rest := by
    simp only [member, String.append_assoc]
  rw [hname]
  exact split?_member hmem fun hborder => hne hborder.1

theorem split?_of_isSideColor (hfamily : (family, properties) ∈ table) (hside : IsSideColor family name) :
    ∃ properties' rest, split? (member family name) = some (properties', rest) ∧ properties' ≠ properties := by
  obtain ⟨rfl, side, hmem, hstart⟩ := hside
  obtain ⟨rest, rfl⟩ := Text.startsWith_iff.1 hstart
  obtain ⟨sideProperties, -, hne, hsplit⟩ := split?_side hmem hfamily
  exact ⟨sideProperties, rest, hsplit rest, hne⟩

/-! ## Texts that do not begin like a name -/

/-- A text that does not begin like a name does not change which family a text begins with. -/
theorem after?_append {text : String} (hname : isIdentifier family = true) {c : Char} {cs : List Char}
    (htext : text.toList = c :: cs) (hc : isNameChar c = false) (s : String) :
    Text.after? (family ++ "-") (s ++ text) = (Text.after? (family ++ "-") s).map (· ++ text) := by
  have hnot : c ∉ (family ++ "-").toList := by
    rw [String.toList_append]
    intro hmem
    rw [Text.all_isNameChar_dash hname c hmem] at hc
    cases hc
  rw [Text.after?, Text.after?, String.toList_append (s := s), htext, Text.dropStart?_append hnot, Option.map_map,
    Option.map_map]
  congr 1
  funext rest
  apply String.toList_injective
  simp [htext]

/-- What does not begin like a name makes no side of what is none. -/
theorem isSideColor_append_iff {text : String} {c : Char} {cs : List Char} (htext : text.toList = c :: cs)
    (hc : isNameChar c = false) : IsSideColor family (name ++ text) ↔ IsSideColor family name := by
  have hsides : ∀ side ∈ sides, isIdentifier side = true := by decide
  refine and_congr_right fun _ => exists_congr fun side => and_congr_right fun hside => ?_
  rw [Text.startsWith_eq_isSome_after?, Text.startsWith_eq_isSome_after?,
    after?_append (hsides side hside) htext hc, Option.isSome_map]

/-- What stands behind the dash of a family does not make it another one, unless it begins like a name. -/
theorem split?_append {text : String} (hfamily : (family, properties) ∈ table) {c : Char} {cs : List Char}
    (htext : text.toList = c :: cs) (hc : isNameChar c = false) :
    split? (family ++ "-" ++ text) = some (properties, text) := by
  refine split?_member hfamily fun hside => ?_
  rw [← String.empty_append (s := text), isSideColor_append_iff htext hc] at hside
  exact absurd hside.2 (by decide)

end AtomicCss.ColorFamily
