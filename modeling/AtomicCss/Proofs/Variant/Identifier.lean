import AtomicCss.Proofs.Dynamic.Names
import AtomicCss.Proofs.Variant.Escape

/-!
# When an escaped token is an identifier

A class selector is a dot and an identifier. Letters, digits, dashes, underscores and everything beyond
ASCII may stand in an identifier as they are; the rest of ASCII has to be escaped, and so has a digit in
front or behind a dash in front.

The characters that are escaped are a list, and it has one gap: the grave accent. Blanks and control
characters are not escaped either, but no token of a page holds them. A digit behind a dash in front is left
alone.

* **`IsCssIdentifier`** — the rule of CSS.
* **`isProper_spell_iff`** — which characters the list covers.
* **`opensAsNumber_spellAll_iff`** — which tokens begin as a number in spite of escaping.
* **`isCssIdentifier_escape_iff`** — the exact condition on a token.
-/

namespace AtomicCss

open Text (isNameChar opensNegative)

/-! ## The rule of CSS -/

/-- Whether a character may be written this way in an identifier: by itself if it is a letter, a digit, a
dash, an underscore or no ASCII, behind a backslash in any case, and a code point may end in a space. -/
def Spelling.isProper : Spelling → Bool
  | plain c => isNameChar c || 128 ≤ c.toNat
  | escaped _ => true
  | coded _ blank => blank.all (· == ' ')

/-- A name begins as a number does: with a digit, or with a dash and a digit, neither of them escaped. -/
def OpensAsNumber (name : List Spelling) : Prop :=
  (∃ c rest, name = .plain c :: rest ∧ c.isDigit = true) ∨
    ∃ c rest, name = .plain '-' :: .plain c :: rest ∧ c.isDigit = true

/-- A text is an identifier of CSS. -/
structure IsCssIdentifier (s : String) : Prop where
  proper : ∀ spelling ∈ spellings s.toList, spelling.isProper = true
  opening : ¬ OpensAsNumber (spellings s.toList)

/-! ## Characters -/

/-- A character that escaping makes fit for an identifier: no grave accent, no space and no control
character of ASCII. -/
def IsCovered (c : Char) : Prop :=
  c ≠ '\x60' ∧ 0x20 < c.toNat ∧ c.toNat ≠ 0x7f

instance (c : Char) : Decidable (IsCovered c) :=
  inferInstanceAs (Decidable (_ ∧ _))

theorem isProper_spell_ascii : ∀ n < 128, (spell (Char.ofNat n)).isProper = true ↔ IsCovered (Char.ofNat n) := by
  decide +kernel

theorem toNat_lt_of_escaped {c : Char} (h : c ∈ escapedChars) : c.toNat < 128 := by
  have hascii : (escapedChars.all fun c => decide (c.toNat < 128)) = true := by decide
  simpa using List.all_eq_true.1 hascii c h

/-- **The list of escaped characters covers ASCII** but for the grave accent, the space and the control
characters. -/
theorem isProper_spell_iff (c : Char) : (spell c).isProper = true ↔ IsCovered c := by
  by_cases hascii : c.toNat < 128
  · have htable := isProper_spell_ascii c.toNat hascii
    rwa [Char.ofNat_toNat] at htable
  · have hplain : ¬ escapedChars.contains c = true := by
      intro hmem
      exact hascii (toNat_lt_of_escaped (List.contains_iff_mem.1 hmem))
    have hcovered : IsCovered c := by
      refine ⟨?_, by omega, by omega⟩
      rintro rfl
      exact hascii (by decide)
    rw [spell, if_neg hplain, Spelling.isProper, decide_eq_true (by omega : 128 ≤ c.toNat), Bool.or_true]
    exact iff_of_true rfl hcovered

theorem isProper_spellFirst_iff (c : Char) : (spellFirst c).isProper = true ↔ IsCovered c := by
  unfold spellFirst
  split
  · rename_i hdigit
    have hbounds : 48 ≤ c.toNat ∧ c.toNat ≤ 57 := Char.isDigit_iff_toNat.1 hdigit
    have hcovered : IsCovered c := by
      refine ⟨?_, by omega, by omega⟩
      rintro rfl
      exact absurd hdigit (by decide)
    exact iff_of_true rfl hcovered
  · exact isProper_spell_iff c

theorem isProper_spellAll_iff (cs : List Char) :
    (∀ spelling ∈ spellAll cs, spelling.isProper = true) ↔ ∀ c ∈ cs, IsCovered c := by
  cases cs with
  | nil => simp [spellAll]
  | cons c cs =>
    simp only [spellAll, List.forall_mem_cons, List.forall_mem_map, isProper_spellFirst_iff,
      isProper_spell_iff]

/-! ## Openings -/

theorem eq_of_spell_eq_plain {c d : Char} (h : spell c = .plain d) : c = d := by
  have hchar := char_spell c
  rw [h] at hchar
  exact hchar.symm

/-- A digit behind the first character is written as it is. -/
theorem spell_of_isDigit {c : Char} (h : c.isDigit = true) : spell c = .plain c := by
  rw [spell, if_neg]
  intro hmem
  -- no digit is escaped, not even a hexadecimal one
  have hhex := isHexDigit_of_escaped (List.contains_iff_mem.1 hmem)
  rw [isHexDigit_of_isDigit h] at hhex
  cases hhex

/-- What the first character is written as is a character itself only if it is no digit. -/
theorem eq_of_spellFirst_eq_plain {c d : Char} (h : spellFirst c = .plain d) :
    c = d ∧ c.isDigit = false := by
  unfold spellFirst at h
  split at h
  · cases h
  · rename_i hdigit
    exact ⟨eq_of_spell_eq_plain h, Bool.eq_false_iff.2 hdigit⟩

/-- **Escaping takes care of a digit in front**, but not of one behind a dash. -/
theorem opensAsNumber_spellAll_iff (cs : List Char) :
    OpensAsNumber (spellAll cs) ↔ opensNegative cs = true := by
  rw [Text.opensNegative_iff]
  constructor
  · intro h
    cases cs with
    | nil => rcases h with ⟨c, rest, heq, -⟩ | ⟨c, rest, heq, -⟩ <;> cases heq
    | cons d ds =>
      rw [OpensAsNumber, spellAll] at h
      rcases h with ⟨c, rest, heq, hdigit⟩ | ⟨c, rest, heq, hdigit⟩
      · obtain ⟨rfl, hno⟩ := eq_of_spellFirst_eq_plain (List.cons.inj heq).1
        rw [hno] at hdigit
        cases hdigit
      · obtain ⟨rfl, -⟩ := eq_of_spellFirst_eq_plain (List.cons.inj heq).1
        obtain ⟨e, es, rfl, he, -⟩ := List.map_eq_cons_iff.1 (List.cons.inj heq).2
        obtain rfl := eq_of_spell_eq_plain he
        exact ⟨e, es, rfl, hdigit⟩
  · rintro ⟨c, rest, rfl, hdigit⟩
    have hdash : spellFirst '-' = .plain '-' := by decide
    refine .inr ⟨c, rest.map spell, ?_, hdigit⟩
    rw [spellAll, hdash, List.map_cons, spell_of_isDigit hdigit]

/-! ## Tokens -/

/-- **An escaped token is an identifier** exactly if it holds no grave accent, no space and no control
character of ASCII, and does not begin with a dash and a digit. -/
theorem isCssIdentifier_escape_iff (token : String) :
    IsCssIdentifier (escape token) ↔ (∀ c ∈ token.toList, IsCovered c) ∧ opensNegative token.toList = false := by
  have hspellings : spellings (escape token).toList = spellAll token.toList := by
    rw [escape, String.toList_ofList, spellings_escapeChars]
  rw [← isProper_spellAll_iff, ← Bool.not_eq_true, ← opensAsNumber_spellAll_iff, ← hspellings]
  exact ⟨fun h => ⟨h.proper, h.opening⟩, fun h => ⟨h.1, h.2⟩⟩

end AtomicCss
