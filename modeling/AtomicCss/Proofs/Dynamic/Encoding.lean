import AtomicCss.Proofs.Dynamic.Composition
import AtomicCss.Proofs.Text.Authored

/-!
# Every value can be written in brackets

A class name holds no space, but a value may. This module says that nothing is lost by that: whatever value is wanted
for a family, there is a utility that sets exactly this value, the family with the encoded value in brackets. The other
forms of dynamic utilities do not get in the way, since at most one form reads a text, and neither does a type hint,
since the encoding makes none.

What has to be asked of the value is what any value in brackets has to satisfy, and that it can be encoded at all.

## The architecture

* **`IsEncodable`** — the values in question.
* **`splitHint_encodeSpaces`**, **`arbitrary?_encodeSpaces`** — the encoded value is taken as a whole, and decoded.
* **`encoded_values_come_through`** — all together.
-/

namespace AtomicCss.Dynamic

open Text (isIdentifier encodeSpaces)

variable {value : String}

/-! ## Values -/

/-- The values that can be written in brackets as they are meant. -/
structure IsEncodable (value : String) : Prop where
  has_ink : ∃ c ∈ value.toList, Text.isBlank c = false
  stays_inside : ∀ c ∈ value.toList, c ≠ ';' ∧ c ≠ '\x7b' ∧ c ≠ '\x7d'
  is_balanced : Text.isBalanced value = true
  no_address : Text.startsWith "url(" value = false
  /-- A backslash and a space would be written like an underscore. -/
  no_escaped_space : ¬ ['\\', ' '] <:+: value.toList
  no_hint : ∀ hint rest, Text.cut? ":" value = some (hint, rest) → isHint hint = false

theorem startsWith_of_encodeSpaces {start : String} (hunderscore : '_' ∉ start.toList)
    (hbackslash : '\\' ∉ start.toList) (h : Text.startsWith start (encodeSpaces value) = true) :
    Text.startsWith start value = true := by
  rw [Text.startsWith, List.isPrefixOf_iff_prefix, encodeSpaces, String.toList_ofList] at h
  exact List.isPrefixOf_iff_prefix.2 (Text.prefix_of_prefix_encodeChars hunderscore hbackslash h)

/-- The encoding makes no type hint: a hint has no underscore, so it would stand in the value as well. -/
theorem splitHint_encodeSpaces (h : IsEncodable value) :
    splitHint (encodeSpaces value) = (none, encodeSpaces value) := by
  rcases splitHint_cases (encodeSpaces value) with hsplit | ⟨hint, rest, hmem, hraw, -⟩
  · exact hsplit
  · obtain ⟨hunderscore, hbackslash, hcolon⟩ := not_mem_of_mem_hints hmem
    have hstart : Text.startsWith (hint ++ ":") (encodeSpaces value) = true := Text.startsWith_iff.2 ⟨rest, hraw⟩
    obtain ⟨rest', rfl⟩ := Text.startsWith_iff.1
      (startsWith_of_encodeSpaces (by simp [hunderscore]) (by simp [hbackslash]) hstart)
    have hvalue := h.no_hint hint rest' (Text.cut?_append [] rfl (by simp) hcolon rest')
    rw [isHint_of_mem_hints hmem] at hvalue
    cases hvalue

/-- The encoded value is accepted, and it stands for the value. -/
theorem arbitrary?_encodeSpaces (h : IsEncodable value) : arbitrary? (encodeSpaces value) = some value := by
  refine arbitrary?_eq_some_iff.2 ⟨?_, ?_, ?_, ?_⟩
  · obtain ⟨c, hc, hink⟩ := h.has_ink
    exact Text.isAllBlank_encodeSpaces (List.all_eq_false.2 ⟨c, hc, by simp [hink]⟩)
  · rw [Text.breaksOut_encodeSpaces, Text.breaksOut_eq_false_iff]
    intro c hc
    simp [Text.isDelimiter, h.stays_inside c hc]
  · rw [Text.isBalanced_encodeSpaces]
    exact h.is_balanced
  · have haddress : ¬ Text.startsWith "url(" (encodeSpaces value) = true := fun hstart => by
      have hvalue := startsWith_of_encodeSpaces (by decide) (by decide) hstart
      rw [h.no_address] at hvalue
      cases hvalue
    rw [meaning, if_neg haddress, Text.decodeSpaces_encodeSpaces h.no_escaped_space]

/-! ## Utilities -/

/-- A family that sets something to the value sets it to the decoded text in brackets. -/
theorem resolve?_encodeSpaces (h : IsEncodable value) {family : String} (hname : isIdentifier family = true)
    {declarations : List Declaration} (hassign : assign? family none value = some declarations) :
    resolve? (family ++ "-[" ++ encodeSpaces value ++ "]") = some declarations :=
  resolve?_bracketed hname (splitHint_encodeSpaces h) (arbitrary?_encodeSpaces h) hassign

/-- **Every value comes through.** Whatever value is to be set, if it has ink, holds no delimiter, leaves no bracket
open, is no address, has no space behind a backslash and no type hint in front, then the family with the encoded value
in brackets sets exactly this value: a family with a template sets its properties, each to the value between the pieces
of its text, and a spacing family sets all its properties to the value. -/
theorem encoded_values_come_through (h : IsEncodable value) :
    (∀ entry ∈ templates,
      resolve? (entry.1 ++ "-[" ++ encodeSpaces value ++ "]") =
        some (entry.2.map fun slot => .property slot.property (value.intercalate slot.pieces))) ∧
    ∀ spacing ∈ Catalog.Spacing.families,
      resolve? (spacing.name ++ "-[" ++ encodeSpaces value ++ "]") =
        some (spacing.properties.map fun name => .property name value) := by
  constructor
  · intro entry hentry
    have hassign := assign?_of_mem_templates hentry value
    exact resolve?_encodeSpaces h (isFamily_of_assign? hassign).isIdentifier hassign
  · intro spacing hspacing
    have hassign := assign?_of_mem_families hspacing value
    exact resolve?_encodeSpaces h (isFamily_of_assign? hassign).isIdentifier hassign

/-- The offset of an outline is set by a utility that begins like a color of outlines and has a slash in it. A size is
set along both axes. -/
theorem outline_offset_comes_through :
    IsEncodable "calc(var(--a_b) / 2)" ∧
      resolve? "outline-offset-[calc(var(--a\\_b)_/_2)]" =
        some [.property "outline-offset" "calc(var(--a_b) / 2)"] ∧
      resolve? "size-[calc(var(--a\\_b)_/_2)]" =
        some [.property "width" "calc(var(--a_b) / 2)", .property "height" "calc(var(--a_b) / 2)"] := by
  have hinside : Text.breaksOut "calc(var(--a_b) / 2)" = false := by decide +kernel
  have hcolon : Text.cut? ":" "calc(var(--a_b) / 2)" = none := by decide +kernel
  have h : IsEncodable "calc(var(--a_b) / 2)" := {
    has_ink := ⟨'c', by decide +kernel, by decide⟩
    stays_inside := fun c hc => by
      simpa [Text.isDelimiter, not_or, and_assoc] using Text.breaksOut_eq_false_iff.1 hinside c hc
    is_balanced := by decide +kernel
    no_address := by decide +kernel
    no_escaped_space := by decide +kernel
    no_hint := fun hint rest hcut => by
      rw [hcolon] at hcut
      cases hcut }
  obtain ⟨htemplates, hspacing⟩ := encoded_values_come_through h
  refine ⟨h, ?_, ?_⟩
  · have hmem : ("outline-offset", [Slot.whole "outline-offset"]) ∈ templates := by decide +kernel
    have hset := htemplates _ hmem
    have hutility : "outline-offset" ++ "-[" ++ encodeSpaces "calc(var(--a_b) / 2)" ++ "]" =
        "outline-offset-[calc(var(--a\\_b)_/_2)]" := by decide +kernel
    rw [hutility] at hset
    exact hset.trans (congrArg (fun d => some [d]) (Slot.fill_whole ..))
  · have hmem : ⟨"size", ["width", "height"], false⟩ ∈ Catalog.Spacing.families := by decide +kernel
    have hset := hspacing _ hmem
    have hutility : "size" ++ "-[" ++ encodeSpaces "calc(var(--a_b) / 2)" ++ "]" =
        "size-[calc(var(--a\\_b)_/_2)]" := by decide +kernel
    rwa [hutility] at hset

end AtomicCss.Dynamic
