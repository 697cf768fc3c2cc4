import AtomicCss.Numeric.Decimal
import Mathlib.Algebra.Group.Nat.Defs
import Mathlib.Data.List.TakeWhile

/-!
# Decimal literals

What a decimal literal is made of, and what it is read as. A plain numeral is a literal too: digits with at most one
dot, no sign and no exponent.

## The architecture

* **`isLiteralChar_of_parse?`** — a literal is made of digits, dots, signs and the letter of the exponent.
* **`parse?_of_isDigits`**, **`parse?_of_dot`** — a plain numeral is read as its digits, moved by the number of digits
  behind the dot.
* **`digitsValue_repr`**, **`digitsValue_append`** — a number written in decimal has its value back.
-/

namespace AtomicCss

/-! ## Digits -/

theorem digitsValue_eq (digits : List Char) : digitsValue digits = Nat.ofDigitChars 10 digits 0 :=
  rfl

theorem digitsValue_append (digits digits' : List Char) :
    digitsValue (digits ++ digits') = 10 ^ digits'.length * digitsValue digits + digitsValue digits' := by
  rw [digitsValue_eq, Nat.ofDigitChars_append, Nat.ofDigitChars_eq_ofDigitChars_zero]
  rfl

theorem digitsValue_repr (n : Nat) : digitsValue n.repr.toList = n := by
  rw [digitsValue_eq, Nat.toList_repr]
  exact Nat.ofDigitChars_toDigits (by decide) (by decide)

theorem isDigits_repr (n : Nat) : isDigits n.repr.toList = true := by
  rw [isDigits, Nat.toList_repr, Bool.and_eq_true]
  refine ⟨?_, List.all_eq_true.2 fun c hc => Nat.isDigit_of_mem_toDigits (by decide) (by decide) hc⟩
  cases h : Nat.toDigits 10 n with
  | nil => exact absurd h Nat.toDigits_ne_nil
  | cons c cs => rfl

theorem isDigits_append {digits digits' : List Char} (h : isDigits digits = true) (h' : isDigits digits' = true) :
    isDigits (digits ++ digits') = true := by
  simp only [isDigits, Bool.and_eq_true, Bool.not_eq_true', List.isEmpty_eq_false_iff, List.all_append] at h h' ⊢
  exact ⟨List.append_ne_nil_of_left_ne_nil h.1 _, h.2, h'.2⟩

/-! ## The characters of a literal -/

/-- The characters of which decimal literals are made. -/
def isLiteralChar (c : Char) : Bool :=
  c.isDigit || c == '.' || c == '+' || c == '-' || c == 'e' || c == 'E'

section Literals

variable {cs : List Char}

theorem isLiteralChar_of_isDigit {c : Char} (h : c.isDigit = true) : isLiteralChar c = true := by
  rw [isLiteralChar, h]
  rfl

theorem isLiteralChar_of_readSign (h : ∀ c ∈ (Decimal.readSign cs).2, isLiteralChar c = true) :
    ∀ c ∈ cs, isLiteralChar c = true := by
  unfold Decimal.readSign at h
  split at h
  · exact List.forall_mem_cons.2 ⟨rfl, h⟩
  · exact List.forall_mem_cons.2 ⟨rfl, h⟩
  · exact h

theorem isLiteralChar_of_readExponent {exponent : Int} (h : Decimal.readExponent cs = some exponent) :
    ∀ c ∈ cs, isLiteralChar c = true := by
  unfold Decimal.readExponent at h
  split at h
  · simp
  · rename_i c cs
    dsimp only at h
    split at h
    · rename_i hchecks
      refine List.forall_mem_cons.2 ⟨?_, isLiteralChar_of_readSign fun c hc => isLiteralChar_of_isDigit ?_⟩
      · rcases hchecks.1 with rfl | rfl <;> rfl
      · exact List.all_eq_true.1 (Bool.and_eq_true_iff.1 hchecks.2).2 c hc
    · cases h

/-- Digits in front may be passed over. -/
theorem isLiteralChar_of_dropWhile (h : ∀ c ∈ cs.dropWhile Char.isDigit, isLiteralChar c = true) :
    ∀ c ∈ cs, isLiteralChar c = true := by
  intro c hc
  rw [← List.takeWhile_append_dropWhile (p := Char.isDigit) (l := cs), List.mem_append] at hc
  rcases hc with hc | hc
  · exact isLiteralChar_of_isDigit (List.all_eq_true.1 List.all_takeWhile c hc)
  · exact h c hc

end Literals

theorem isLiteralChar_of_parse? {s : String} {d : Decimal} (h : Decimal.parse? s = some d) :
    ∀ c ∈ s.toList, isLiteralChar c = true := by
  refine isLiteralChar_of_readSign (isLiteralChar_of_dropWhile ?_)
  unfold Decimal.parse? at h
  dsimp only at h
  -- behind the digits there is a dot with more digits, or the exponent at once
  split at h
  · rename_i cs hdot
    split at h
    · cases h
    · obtain ⟨exponent, hexponent, -⟩ := Option.map_eq_some_iff.1 h
      rw [hdot]
      exact List.forall_mem_cons.2 ⟨rfl, isLiteralChar_of_dropWhile (isLiteralChar_of_readExponent hexponent)⟩
  · split at h
    · cases h
    · obtain ⟨exponent, hexponent, -⟩ := Option.map_eq_some_iff.1 h
      exact isLiteralChar_of_readExponent hexponent

/-! ## Plain numerals -/

/-- A plain numeral is digits, or digits on both sides of a dot. -/
theorem isPlainNumeral_iff {s : String} :
    isPlainNumeral s = true ↔ isDigits s.toList = true ∨
      ∃ whole fraction, s.toList = whole ++ '.' :: fraction ∧ isDigits whole = true ∧ isDigits fraction = true := by
  have hdot : Char.isDigit '.' = false := rfl
  constructor
  · intro h
    have hsides := List.takeWhile_append_dropWhile (p := Char.isDigit) (l := s.toList)
    have hwhole : (s.toList.takeWhile Char.isDigit).all Char.isDigit = true := List.all_takeWhile
    unfold isPlainNumeral at h
    dsimp only at h
    split at h
    · rename_i hnil
      rw [hnil, List.append_nil] at hsides
      rw [hsides] at h hwhole
      exact .inl (Bool.and_eq_true_iff.2 ⟨h, hwhole⟩)
    · rename_i fraction hfraction
      obtain ⟨hne, hdigits⟩ := Bool.and_eq_true_iff.1 h
      rw [hfraction] at hsides
      exact .inr ⟨_, fraction, hsides.symm, Bool.and_eq_true_iff.2 ⟨hne, hwhole⟩, hdigits⟩
    · cases h
  · rintro (h | ⟨whole, fraction, hs, hwhole, hfraction⟩)
    · obtain ⟨hne, hall⟩ := Bool.and_eq_true_iff.1 h
      have hall := List.all_eq_true.1 hall
      rw [isPlainNumeral, List.dropWhile_eq_nil_iff.2 hall, List.takeWhile_eq_self_iff.2 hall]
      exact hne
    · obtain ⟨hne, hall⟩ := Bool.and_eq_true_iff.1 hwhole
      have hall := List.all_eq_true.1 hall
      rw [isPlainNumeral, hs, List.dropWhile_append_of_pos hall, List.takeWhile_append_of_pos hall,
        List.dropWhile_cons_of_neg (by simp [hdot]), List.takeWhile_cons_of_neg (by simp [hdot]), List.append_nil]
      exact Bool.and_eq_true_iff.2 ⟨hne, hfraction⟩

theorem readSign_of_isDigits {cs : List Char} (h : isDigits cs = true) (rest : List Char) :
    Decimal.readSign (cs ++ rest) = (false, cs ++ rest) := by
  obtain ⟨hne, hall⟩ := Bool.and_eq_true_iff.1 h
  cases cs with
  | nil => cases hne
  | cons c cs =>
    have hc := List.all_eq_true.1 hall c List.mem_cons_self
    rw [List.cons_append, Decimal.readSign.eq_def]
    split
    · rename_i heq
      obtain ⟨rfl, -⟩ := List.cons.inj heq
      cases hc
    · rename_i heq
      obtain ⟨rfl, -⟩ := List.cons.inj heq
      cases hc
    · rfl

/-- Digits are read as the number that they denote. -/
theorem parse?_of_isDigits {s : String} (h : isDigits s.toList = true) :
    Decimal.parse? s = some ⟨false, digitsValue s.toList, 0⟩ := by
  obtain ⟨hne, hall⟩ := Bool.and_eq_true_iff.1 h
  have hall := List.all_eq_true.1 hall
  have hsign := readSign_of_isDigits h []
  rw [List.append_nil] at hsign
  have hempty : s.toList.isEmpty = false := by simpa using hne
  simp [Decimal.parse?, hsign, List.dropWhile_eq_nil_iff.2 hall, List.takeWhile_eq_self_iff.2 hall, hempty,
    Decimal.readExponent]

/-- Digits on both sides of a dot are read as a whole, moved by the number of digits behind the dot. -/
theorem parse?_of_dot {s : String} {whole fraction : List Char} (hs : s.toList = whole ++ '.' :: fraction)
    (hwhole : isDigits whole = true) (hfraction : isDigits fraction = true) :
    Decimal.parse? s = some ⟨false, digitsValue (whole ++ fraction), -fraction.length⟩ := by
  have hall := List.all_eq_true.1 (Bool.and_eq_true_iff.1 hwhole).2
  have hall' := List.all_eq_true.1 (Bool.and_eq_true_iff.1 hfraction).2
  have hempty : whole.isEmpty = false := by simpa using (Bool.and_eq_true_iff.1 hwhole).1
  have hdot : ¬ Char.isDigit '.' = true := by decide
  simp [Decimal.parse?, hs, readSign_of_isDigits hwhole, List.dropWhile_append_of_pos hall,
    List.takeWhile_append_of_pos hall, List.dropWhile_cons_of_neg hdot, List.takeWhile_cons_of_neg hdot,
    List.dropWhile_eq_nil_iff.2 hall', List.takeWhile_eq_self_iff.2 hall', hempty, Decimal.readExponent]

/-- A plain numeral is a literal without a sign. -/
theorem exists_parse?_of_isPlainNumeral {s : String} (h : isPlainNumeral s = true) :
    ∃ d, Decimal.parse? s = some d ∧ d.negative = false := by
  rcases isPlainNumeral_iff.1 h with hdigits | ⟨whole, fraction, hs, hwhole, hfraction⟩
  · exact ⟨_, parse?_of_isDigits hdigits, rfl⟩
  · exact ⟨_, parse?_of_dot hs hwhole hfraction, rfl⟩

end AtomicCss
