import AtomicCss.Proofs.Text.Delimiter
import Mathlib.Tactic.SplitIfs

/-!
# The order of texts by their bytes

Texts are compared character by character. Their bytes in UTF-8 compare in the same way: of two characters the
smaller one has the smaller encoding, and neither encoding is a beginning of the other, so that the first difference
of two texts decides about their bytes as well.

## The architecture

* **`encode_append_lt`** — of two characters the smaller one has the smaller encoding, whatever follows.
* **`bytes_lt_of_lt`** — the smaller text has the smaller bytes.
-/

namespace AtomicCss.Text

/-! ## Characters -/

theorem toNat_val_lt (c : Char) : c.val.toNat < 0x110000 := by
  rcases c.valid with h | h
  · exact Nat.lt_trans h (by decide)
  · exact h.2

theorem cons_ofNat_lt_cons_ofNat {m n : Nat} (hm : m < 256) (hn : n < 256) {bs cs : List UInt8} :
    UInt8.ofNat m :: bs < UInt8.ofNat n :: cs ↔ m < n ∨ m = n ∧ bs < cs := by
  have hm' : (UInt8.ofNat m).toNat = m := UInt8.toNat_ofNat_of_lt' hm
  have hn' : (UInt8.ofNat n).toNat = n := UInt8.toNat_ofNat_of_lt' hn
  rw [List.cons_lt_cons_iff, UInt8.lt_iff_toNat_lt, ← UInt8.toNat_inj, hm', hn']

/-- In base 64 the leading part of a number decides, and then its last digit. -/
theorem base64_lt_or {m n : Nat} (h : m < n) : m / 64 < n / 64 ∨ m / 64 = n / 64 ∧ m % 64 < n % 64 := by
  omega

/-- Numbers of four digits in base 64 compare as their digits do, one after the other. -/
theorem four_digits_lt {m n : Nat} (h : m < n) (hn : n < 0x200000) :
    m / 262144 % 8 < n / 262144 % 8 ∨ m / 262144 % 8 = n / 262144 % 8 ∧
      (m / 4096 % 64 < n / 4096 % 64 ∨ m / 4096 % 64 = n / 4096 % 64 ∧
        (m / 64 % 64 < n / 64 % 64 ∨ m / 64 % 64 = n / 64 % 64 ∧ m % 64 < n % 64)) := by
  rcases base64_lt_or h with h | ⟨hsame, h⟩
  · rcases base64_lt_or h with h | ⟨hsame, h⟩
    · rcases base64_lt_or h with h | ⟨hsame, h⟩ <;> omega
    · omega
  · omega

/-- **Of two characters the smaller one has the smaller encoding**, whatever follows. An encoding of more bytes begins
with a greater one, and encodings of the same length are digits in base 64. -/
theorem encode_append_lt {c d : Char} (h : c < d) (bs cs : List UInt8) :
    String.utf8EncodeChar c ++ bs < String.utf8EncodeChar d ++ cs := by
  have hlt : c.val.toNat < d.val.toNat := h
  have hd := toNat_val_lt d
  have hdigits := four_digits_lt hlt (Nat.lt_trans hd (by decide))
  unfold String.utf8EncodeChar
  simp only
  split_ifs <;> simp (disch := omega) only [List.cons_append, List.nil_append, cons_ofNat_lt_cons_ofNat] <;> omega

/-! ## Texts -/

theorem flatMap_encode_lt {cs ds : List Char} (h : cs < ds) :
    cs.flatMap String.utf8EncodeChar < ds.flatMap String.utf8EncodeChar := by
  induction cs generalizing ds with
  | nil =>
    cases ds with
    | nil => exact absurd h (List.lt_irrefl _)
    | cons d ds =>
      rw [List.flatMap_nil, List.flatMap_cons]
      cases hd : String.utf8EncodeChar d with
      | nil => exact absurd hd String.utf8EncodeChar_ne_nil
      | cons b bs => exact List.nil_lt_cons b _
  | cons c cs ih =>
    cases ds with
    | nil => exact absurd h (List.not_lt_nil _)
    | cons d ds =>
      rw [List.flatMap_cons, List.flatMap_cons]
      rcases List.cons_lt_cons_iff.1 h with hlt | ⟨rfl, hrest⟩
      · exact encode_append_lt hlt _ _
      · exact List.append_left_lt (ih hrest)

/-- **The smaller text has the smaller bytes.** -/
theorem bytes_lt_of_lt {s t : String} (h : s < t) : s.toUTF8.data.toList < t.toUTF8.data.toList := by
  rw [bytes_eq_flatMap, bytes_eq_flatMap]
  exact flatMap_encode_lt (String.lt_iff.1 h)

end AtomicCss.Text
