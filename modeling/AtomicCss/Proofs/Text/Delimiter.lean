import AtomicCss.Numeric.Decimal
import AtomicCss.Text.Cut
import AtomicCss.Text.Identifier
import Mathlib.Data.List.Basic

/-!
# Texts without delimiters

A text that holds no semicolon and no brace cannot end the declaration or the block that it is put into.
This module says which texts those are: what is built from such texts, cut out of them, or numeric.

## The architecture

* **`breaksOut_append`**, **`breaksOut_intercalate`** — texts put together.
* **`breaksOut_of_enclosed?`**, **`breaksOut_of_cut?`** and their kin — parts of a text.
* **`breaksOut_of_isPlainNumeral`**, **`breaksOut_repr`** — numerals.
* **`isIdentifier_iff`**, **`isIdentifier_append`** — names, which are made of characters that delimit nothing.
* **`asciiAll`** — a test told from the bytes of a text. It is what a table of fixed texts is checked with,
  since a text has its bytes at hand and its characters only by decoding them.
-/

namespace AtomicCss.Text

/-! ## Texts put together -/

theorem breaksOut_eq_false_iff {s : String} :
    breaksOut s = false ↔ ∀ c ∈ s.toList, isDelimiter c = false := by
  simp [breaksOut]

/-- A text that breaks out does so in one of its parts. -/
@[simp] theorem breaksOut_append (s t : String) :
    breaksOut (s ++ t) = (breaksOut s || breaksOut t) := by
  simp [breaksOut]

theorem breaksOut_ofList (cs : List Char) : breaksOut (String.ofList cs) = cs.any isDelimiter := by
  rw [breaksOut, String.toList_ofList]

/-- Texts with a text between them hold no delimiter if none of them does. -/
theorem breaksOut_intercalate {sep : String} {pieces : List String} (hsep : breaksOut sep = false)
    (h : ∀ piece ∈ pieces, breaksOut piece = false) : breaksOut (sep.intercalate pieces) = false := by
  induction pieces with
  | nil =>
    rw [String.intercalate_nil]
    rfl
  | cons piece pieces ih =>
    have hpiece := h piece (List.mem_cons_self ..)
    have hrest := ih fun p hp => h p (List.mem_cons_of_mem _ hp)
    cases pieces with
    | nil => rwa [String.intercalate_singleton]
    | cons next rest =>
      rw [String.intercalate_cons_cons, breaksOut_append, breaksOut_append, hpiece, hsep, hrest]
      rfl

/-! ## Parts of a text -/

/-- A text is its start and what follows. -/
theorem after?_eq_some_iff {start s rest : String} : after? start s = some rest ↔ s = start ++ rest := by
  rw [after?, Option.map_eq_some_iff, ← String.toList_inj, String.toList_append]
  constructor
  · rintro ⟨cs, hcs, rfl⟩
    rw [dropStart?_eq_some_iff.1 hcs, String.toList_ofList]
  · intro h
    exact ⟨rest.toList, dropStart?_eq_some_iff.2 h, String.ofList_toList⟩

/-- A text is its end and what stands in front. -/
theorem before?_eq_some_iff {stop s front : String} : before? stop s = some front ↔ s = front ++ stop := by
  rw [before?, Option.map_eq_some_iff, ← String.toList_inj, String.toList_append]
  constructor
  · rintro ⟨cs, hcs, rfl⟩
    rw [dropStop?_eq_some_iff.1 hcs, String.toList_ofList]
  · intro h
    exact ⟨front.toList, dropStop?_eq_some_iff.2 h, String.ofList_toList⟩

theorem eq_append_of_after? {start s rest : String} (h : after? start s = some rest) :
    s = start ++ rest :=
  after?_eq_some_iff.1 h

theorem eq_append_of_before? {stop s front : String} (h : before? stop s = some front) :
    s = front ++ stop :=
  before?_eq_some_iff.1 h

/-- A text does not begin with a character that it does not hold. -/
theorem after?_eq_none_of_not_mem {s start : String} {c : Char} (hstart : start.toList = [c]) (h : c ∉ s.toList) :
    after? start s = none := by
  rw [Option.eq_none_iff_forall_ne_some]
  rintro rest hrest
  refine h ?_
  rw [eq_append_of_after? hrest, String.toList_append, hstart]
  exact List.mem_cons_self

theorem startsWith_iff {start s : String} : startsWith start s = true ↔ ∃ rest, s = start ++ rest := by
  rw [startsWith, List.isPrefixOf_iff_prefix]
  constructor
  · rintro ⟨rest, hrest⟩
    exact ⟨String.ofList rest, String.toList_inj.1 (by rw [String.toList_append, String.toList_ofList, hrest])⟩
  · rintro ⟨rest, rfl⟩
    exact ⟨rest.toList, String.toList_append.symm⟩

theorem endsWith_iff {stop s : String} : endsWith stop s = true ↔ ∃ front, s = front ++ stop := by
  rw [endsWith, List.isSuffixOf_iff_suffix]
  constructor
  · rintro ⟨front, hfront⟩
    exact ⟨String.ofList front, String.toList_inj.1 (by rw [String.toList_append, String.toList_ofList, hfront])⟩
  · rintro ⟨front, rfl⟩
    exact ⟨front.toList, String.toList_append.symm⟩

theorem startsWith_eq_isSome_after? (start s : String) : startsWith start s = (after? start s).isSome := by
  rw [Bool.eq_iff_iff, startsWith_iff, Option.isSome_iff_exists]
  simp only [after?_eq_some_iff]

/-- Neither of two texts begins as the other does. -/
def apart (s t : String) : Bool :=
  !startsWith s t && !startsWith t s

/-- **No text begins with two that are apart.** -/
theorem not_prefix_of_apart {s t : String} (h : apart s t = true) {cs : List Char} (hs : s.toList <+: cs) :
    ¬ t.toList <+: cs := by
  intro ht
  rw [apart, Bool.and_eq_true, Bool.not_eq_true', Bool.not_eq_true', ← Bool.not_eq_true, ← Bool.not_eq_true,
    startsWith, startsWith, List.isPrefixOf_iff_prefix, List.isPrefixOf_iff_prefix] at h
  rcases List.prefix_or_prefix_of_prefix hs ht with hprefix | hprefix
  · exact h.1 hprefix
  · exact h.2 hprefix

theorem after?_eq_none_of_apart {stem other s rest : String} (h : after? stem s = some rest)
    (hother : apart stem other = true) : after? other s = none := by
  rw [Option.eq_none_iff_forall_ne_some]
  intro rest' hrest'
  have hstem : stem.toList <+: s.toList := by simp [eq_append_of_after? h]
  exact not_prefix_of_apart hother hstem (by simp [eq_append_of_after? hrest'])

theorem enclosed?_append (start stop inner : String) :
    enclosed? start stop (start ++ inner ++ stop) = some inner := by
  rw [enclosed?, after?_eq_some_iff.2 (String.append_assoc ..), Option.bind_some, before?_eq_some_iff]

theorem eq_append_of_enclosed? {start stop s inner : String}
    (h : enclosed? start stop s = some inner) : s = start ++ inner ++ stop := by
  obtain ⟨rest, hrest, hinner⟩ := Option.bind_eq_some_iff.1 h
  rw [eq_append_of_after? hrest, eq_append_of_before? hinner, String.append_assoc]

theorem eq_append_of_cut? {sep s left right : String} (h : cut? sep s = some (left, right)) :
    s = left ++ sep ++ right := by
  obtain ⟨⟨l, r⟩, hcut, hsides⟩ := Option.map_eq_some_iff.1 h
  obtain ⟨rfl, rfl⟩ := Prod.mk.inj hsides
  apply String.toList_injective
  rw [cutAt_eq_some hcut]
  simp

/-- A text is cut in front of a separator whose last character stands nowhere before. -/
theorem cut?_append (init : List Char) {sep left : String} {last : Char} (hsep : sep.toList = init ++ [last])
    (hinit : last ∉ init) (hleft : last ∉ left.toList) (rest : String) :
    cut? sep (left ++ sep ++ rest) = some (left, rest) := by
  have hchars : (left ++ sep ++ rest).toList = left.toList ++ (init ++ last :: rest.toList) := by
    simp [String.toList_append, hsep]
  rw [cut?, hsep, hchars, cutAt_append hinit hleft]
  simp

/-- What follows a start does not depend on what stands behind a character that the start does not hold. -/
theorem dropStart?_append {start : List Char} {c : Char} (h : c ∉ start) (cs rest : List Char) :
    dropStart? start (cs ++ c :: rest) = (dropStart? start cs).map (· ++ c :: rest) := by
  induction start generalizing cs with
  | nil => rfl
  | cons d ds ih =>
    obtain ⟨hd, hds⟩ := not_or.1 (List.mem_cons.not.1 h)
    cases cs with
    | nil =>
      have hne : ¬ d = c := fun heq => hd heq.symm
      simp [dropStart?, hne]
    | cons b cs =>
      rw [List.cons_append, dropStart?, dropStart?, ih hds]
      split <;> rfl

/-- A piece occurs in a list that is made with it. -/
theorem cutAt_ne_none {sep : List Char} (left right : List Char) : cutAt sep (left ++ sep ++ right) ≠ none := by
  induction left with
  | nil =>
    have hdrop : dropStart? sep (sep ++ right) = some right := dropStart?_eq_some_iff.2 rfl
    rw [List.nil_append]
    cases hcs : sep ++ right with
    | nil => simp [cutAt, (List.append_eq_nil_iff.1 hcs).1]
    | cons c cs =>
      rw [hcs] at hdrop
      rw [cutAt, hdrop]
      exact Option.some_ne_none _
  | cons c left ih =>
    rw [List.cons_append, List.cons_append, cutAt]
    split
    · exact Option.some_ne_none _
    · exact fun hnone => ih (Option.map_eq_none_iff.1 hnone)

theorem contains_iff {piece s : String} : contains piece s = true ↔ ∃ left right, s = left ++ piece ++ right := by
  rw [contains, Option.isSome_iff_exists]
  constructor
  · rintro ⟨⟨left, right⟩, hcut⟩
    exact ⟨left, right, eq_append_of_cut? hcut⟩
  · rintro ⟨left, right, rfl⟩
    rw [← Option.isSome_iff_exists, cut?, Option.isSome_map, Option.isSome_iff_ne_none, String.toList_append,
      String.toList_append]
    exact cutAt_ne_none _ _

/-- Two characters that differ are found at the first place where the one stands in front of the other. -/
theorem cutAt_pair {a b : Char} (hne : a ≠ b) {left : List Char} (h : ¬ [a, b] <:+: left) (rest : List Char) :
    cutAt [a, b] (left ++ a :: b :: rest) = some (left, rest) := by
  induction left with
  | nil => simp [cutAt, dropStart?]
  | cons c left ih =>
    have hdrop : dropStart? [a, b] (c :: left ++ a :: b :: rest) = none := by
      rw [Option.eq_none_iff_forall_ne_some]
      intro rest' hrest
      have hchars : c :: left ++ a :: b :: rest = a :: b :: rest' := dropStart?_eq_some_iff.1 hrest
      cases left with
      | nil => exact hne (List.cons.inj (List.cons.inj hchars).2).1
      | cons d left =>
        obtain ⟨rfl, hchars⟩ := List.cons.inj hchars
        obtain ⟨rfl, -⟩ := List.cons.inj hchars
        exact h (List.IsPrefix.isInfix ⟨left, rfl⟩)
    rw [List.cons_append] at hdrop
    rw [List.cons_append, cutAt, hdrop]
    simp [ih fun hinfix => h (List.infix_cons hinfix)]

/-- In front of the first such place a list is determined, and so is what follows. -/
theorem eq_of_pair {a b : Char} (hne : a ≠ b) {left left' rest rest' : List Char} (h : ¬ [a, b] <:+: left)
    (h' : ¬ [a, b] <:+: left') (heq : left ++ a :: b :: rest = left' ++ a :: b :: rest') :
    left = left' ∧ rest = rest' := by
  have hcut := cutAt_pair hne h rest
  rw [heq, cutAt_pair hne h' rest'] at hcut
  obtain ⟨hleft, hrest⟩ := Prod.mk.inj (Option.some.inj hcut)
  exact ⟨hleft.symm, hrest.symm⟩

/-- The first character that fails a test cuts a list in only one way. -/
theorem append_cons_inj_of_test {test : Char → Bool} {front front' cs cs' : List Char} {c c' : Char}
    (h : ∀ x ∈ front, test x = true) (h' : ∀ x ∈ front', test x = true) (hc : test c = false)
    (hc' : test c' = false) (heq : front ++ c :: cs = front' ++ c' :: cs') :
    front = front' ∧ c = c' ∧ cs = cs' := by
  have htake := congrArg (List.takeWhile test) heq
  have hdrop := congrArg (List.dropWhile test) heq
  rw [List.takeWhile_append_of_pos h, List.takeWhile_append_of_pos h', List.takeWhile_cons_of_neg (by simp [hc]),
    List.takeWhile_cons_of_neg (by simp [hc']), List.append_nil, List.append_nil] at htake
  rw [List.dropWhile_append_of_pos h, List.dropWhile_append_of_pos h', List.dropWhile_cons_of_neg (by simp [hc]),
    List.dropWhile_cons_of_neg (by simp [hc'])] at hdrop
  exact ⟨htake, List.cons.inj hdrop⟩

theorem eq_append_of_cutLast? {sep : Char} {s left right : String} (h : cutLast? sep s = some (left, right)) :
    s = left ++ String.singleton sep ++ right := by
  obtain ⟨⟨l, r⟩, hcut, hsides⟩ := Option.map_eq_some_iff.1 h
  obtain ⟨rfl, rfl⟩ := Prod.mk.inj hsides
  apply String.toList_injective
  rw [(cutAtLast_eq_some hcut).1]
  simp

/-- A list is cut at its last separator, which is the one that no other follows. -/
theorem cutAtLast_append {sep : Char} {left right : List Char} (h : sep ∉ right) :
    cutAtLast sep (left ++ sep :: right) = some (left, right) := by
  induction left with
  | nil =>
    have hnone : cutAtLast sep right = none := by
      rw [Option.eq_none_iff_forall_ne_some]
      rintro ⟨front, rest⟩ hcut
      refine h ?_
      rw [(cutAtLast_eq_some hcut).1]
      simp
    rw [List.nil_append, cutAtLast, hnone]
    exact if_pos rfl
  | cons c left ih => rw [List.cons_append, cutAtLast, ih]

theorem cutLast?_append {sep : Char} {left right : String} (h : sep ∉ right.toList) :
    cutLast? sep (left ++ String.singleton sep ++ right) = some (left, right) := by
  have hchars : (left ++ String.singleton sep ++ right).toList = left.toList ++ sep :: right.toList := by simp
  rw [cutLast?, hchars, cutAtLast_append h]
  simp

theorem breaksOut_of_after? {start s rest : String} (h : after? start s = some rest)
    (hs : breaksOut s = false) : breaksOut rest = false := by
  rw [eq_append_of_after? h, breaksOut_append, Bool.or_eq_false_iff] at hs
  exact hs.2

theorem breaksOut_of_enclosed? {start stop s inner : String} (h : enclosed? start stop s = some inner)
    (hs : breaksOut s = false) : breaksOut inner = false := by
  rw [eq_append_of_enclosed? h, breaksOut_append, breaksOut_append, Bool.or_eq_false_iff,
    Bool.or_eq_false_iff] at hs
  exact hs.1.2

theorem breaksOut_of_cut? {sep s left right : String} (h : cut? sep s = some (left, right))
    (hs : breaksOut s = false) : breaksOut left = false ∧ breaksOut right = false := by
  rw [eq_append_of_cut? h, breaksOut_append, breaksOut_append, Bool.or_eq_false_iff,
    Bool.or_eq_false_iff] at hs
  exact ⟨hs.1.1, hs.2⟩

/-- What stands in one of the lists of a join stands in the join. -/
theorem mem_intercalate {α : Type} {sep xs : List α} {x : α} {l : List (List α)} (hxs : xs ∈ l)
    (hx : x ∈ xs) : x ∈ sep.intercalate l := by
  induction l with
  | nil => cases hxs
  | cons ys l ih =>
    cases l with
    | nil =>
      obtain rfl := List.mem_singleton.1 hxs
      simpa [List.intercalate] using hx
    | cons zs l =>
      rw [List.intercalate_cons_cons]
      rcases List.mem_cons.1 hxs with rfl | hxs
      · exact List.mem_append_left _ (List.mem_append_left _ hx)
      · exact List.mem_append_right _ (ih hxs)

theorem breaksOut_of_mem_pieces {sep : Char} {s piece : String} (h : piece ∈ pieces sep s)
    (hs : breaksOut s = false) : breaksOut piece = false := by
  obtain ⟨cs, hcs, rfl⟩ := List.mem_map.1 h
  rw [breaksOut_ofList, List.any_eq_false]
  intro c hc
  have hmem : c ∈ [sep].intercalate (s.toList.splitOn sep) := mem_intercalate hcs hc
  rw [List.intercalate_splitOn] at hmem
  rw [breaksOut_eq_false_iff.1 hs c hmem]
  exact Bool.false_ne_true

/-- A text in which the separator occurs has two pieces at least. -/
theorem two_le_length_pieces {s : String} (h : contains "&" s) : 2 ≤ (pieces '&' s).length := by
  -- both sides of the separator give one piece or more
  obtain ⟨left, right, rfl⟩ := contains_iff.1 h
  have hs : (left ++ "&" ++ right).toList = left.toList ++ '&' :: right.toList := by simp
  have hleft := List.length_pos_iff.2 (List.splitOn_ne_nil '&' left.toList)
  have hright := List.length_pos_iff.2 (List.splitOn_ne_nil '&' right.toList)
  rw [pieces, hs, List.splitOn_append_cons_self, List.length_map, List.length_append]
  omega

/-! ## Numerals -/

theorem isDelimiter_of_isDigit {c : Char} (h : c.isDigit) : isDelimiter c = false := by
  cases hc : isDelimiter c with
  | false => rfl
  | true =>
    simp only [isDelimiter, Bool.or_eq_true, beq_iff_eq] at hc
    rcases hc with (rfl | rfl) | rfl <;> exact absurd h (by decide)

theorem any_eq_false_of_all_isDigit {cs : List Char} (h : cs.all Char.isDigit) :
    cs.any isDelimiter = false := by
  rw [List.any_eq_false]
  intro c hc
  rw [isDelimiter_of_isDigit (List.all_eq_true.1 h c hc)]
  exact Bool.false_ne_true

/-- A plain numeral is made of digits and dots. -/
theorem isDigit_or_of_isPlainNumeral {s : String} (h : isPlainNumeral s = true) :
    ∀ c ∈ s.toList, c.isDigit = true ∨ c = '.' := by
  intro c hc
  rw [← List.takeWhile_append_dropWhile (p := Char.isDigit) (l := s.toList), List.mem_append] at hc
  rcases hc with hc | hc
  · exact .inl (List.all_eq_true.1 List.all_takeWhile c hc)
  · unfold isPlainNumeral at h
    split at h
    · rename_i hrest
      rw [hrest] at hc
      cases hc
    · rename_i fraction hrest
      rw [Bool.and_eq_true, isDigits, Bool.and_eq_true] at h
      rw [hrest] at hc
      rcases List.mem_cons.1 hc with rfl | hc
      · exact .inr rfl
      · exact .inl (List.all_eq_true.1 h.2.2 c hc)
    · cases h

/-- A plain numeral holds no delimiter. -/
theorem breaksOut_of_isPlainNumeral {s : String} (h : isPlainNumeral s) : breaksOut s = false := by
  rw [breaksOut_eq_false_iff]
  intro c hc
  rcases isDigit_or_of_isPlainNumeral h c hc with hdigit | rfl
  · exact isDelimiter_of_isDigit hdigit
  · rfl

/-- A number in decimal is made of digits. -/
theorem isDigit_of_mem_repr {n : Nat} {c : Char} (h : c ∈ n.repr.toList) : c.isDigit = true := by
  rw [Nat.toList_repr] at h
  exact Nat.isDigit_of_mem_toDigits (by decide) (by decide) h

@[simp] theorem breaksOut_repr (n : Nat) : breaksOut n.repr = false :=
  any_eq_false_of_all_isDigit (List.all_eq_true.2 fun _ hc => isDigit_of_mem_repr hc)

/-! ## Names -/

theorem isIdentifier_iff {s : String} :
    isIdentifier s = true ↔ s ≠ "" ∧ ∀ c ∈ s.toList, isNameChar c = true := by
  rw [isIdentifier, Bool.and_eq_true, Bool.not_eq_true', List.all_eq_true, ← Bool.not_eq_true,
    String.isEmpty_iff]

theorem not_mem_of_isIdentifier {s : String} (h : isIdentifier s = true) {c : Char}
    (hc : isNameChar c = false) : c ∉ s.toList := by
  intro hmem
  rw [(isIdentifier_iff.1 h).2 c hmem] at hc
  cases hc

theorem all_isNameChar_of_isIdentifier {s : String} (h : isIdentifier s = true) :
    ∀ c ∈ s.toList, isNameChar c = true :=
  (isIdentifier_iff.1 h).2

/-- A dash behind a name belongs to the name. -/
theorem all_isNameChar_dash {s : String} (h : isIdentifier s = true) :
    ∀ c ∈ s.toList ++ ['-'], isNameChar c = true := by
  intro c hc
  rcases List.mem_append.1 hc with hc | hc
  · exact all_isNameChar_of_isIdentifier h c hc
  · obtain rfl := List.mem_singleton.1 hc
    decide

/-- A name with something nameable in front is a name. -/
theorem isIdentifier_append {s t : String} (hs : s.toList.all isNameChar) (ht : isIdentifier t) :
    isIdentifier (s ++ t) := by
  simp only [isIdentifier, Bool.and_eq_true, Bool.not_eq_true', String.toList_append,
    List.all_append] at ht ⊢
  refine ⟨?_, hs, ht.2⟩
  rw [← Bool.not_eq_true, String.isEmpty_iff] at ht ⊢
  simp [ht.1]

/-- What an identifier ends with is an identifier, if it is not empty. -/
theorem isIdentifier_of_append {front rest : String} (h : isIdentifier (front ++ rest) = true) (hrest : rest ≠ "") :
    isIdentifier rest = true := by
  rw [isIdentifier_iff] at h ⊢
  refine ⟨hrest, fun c hc => h.2 c ?_⟩
  rw [String.toList_append]
  exact List.mem_append_right _ hc

theorem isIdentifier_dashes {name : String} (h : isIdentifier name) :
    isIdentifier ("--" ++ name) :=
  isIdentifier_append (by decide) h

/-! ## Tests on bytes -/

/-- Whether a text is ASCII and all its characters pass a test, told from its bytes. -/
def asciiAll (p : Char → Bool) (s : String) : Bool :=
  s.toUTF8.data.toList.all fun byte => decide (byte.toNat < 128) && p (Char.ofNat byte.toNat)

theorem bytes_eq_flatMap (s : String) :
    s.toUTF8.data.toList = s.toList.flatMap String.utf8EncodeChar := by
  conv => lhs; rw [← String.ofList_toList (s := s)]
  rw [String.toUTF8_eq_toByteArray, String.toByteArray_ofList, List.utf8Encode]
  simp

/-- A character whose bytes are ASCII is its only byte: every longer encoding begins with a byte that is
not. -/
theorem utf8EncodeChar_of_ascii {c : Char} (h : ∀ byte ∈ String.utf8EncodeChar c, byte.toNat < 128) :
    String.utf8EncodeChar c = [UInt8.ofNat c.toNat] ∧ c.toNat < 128 := by
  unfold String.utf8EncodeChar at h ⊢
  simp only at h ⊢
  split at h
  · rename_i hc
    rw [if_pos hc]
    have hval : c.val.toNat = c.toNat := rfl
    exact ⟨rfl, by omega⟩
  all_goals
    split at h
    · have hfirst := h _ (List.mem_cons_self ..)
      simp at hfirst
      omega
    · split at h
      · have hfirst := h _ (List.mem_cons_self ..)
        simp at hfirst
        omega
      · have hfirst := h _ (List.mem_cons_self ..)
        simp at hfirst
        omega

/-- **What is told from the bytes holds of the characters.** -/
theorem all_of_asciiAll {p : Char → Bool} {s : String} (h : asciiAll p s) : s.toList.all p := by
  rw [asciiAll, bytes_eq_flatMap] at h
  simp only [List.all_eq_true, List.mem_flatMap, Bool.and_eq_true, decide_eq_true_eq] at h
  rw [List.all_eq_true]
  intro c hc
  obtain ⟨henc, hlt⟩ := utf8EncodeChar_of_ascii fun byte hb => (h byte ⟨c, hc, hb⟩).1
  have hp := (h (UInt8.ofNat c.toNat) ⟨c, hc, by rw [henc]; exact List.mem_singleton_self _⟩).2
  have hval : (UInt8.ofNat c.toNat).toNat = c.toNat := by
    simp
    omega
  rw [hval, Char.ofNat_toNat] at hp
  exact hp

/-- Whether a fixed text is an identifier, told from its bytes. -/
def isAsciiName (s : String) : Bool :=
  !s.isEmpty && asciiAll isNameChar s

/-- Whether a fixed text is ASCII without delimiters, told from its bytes. -/
def isAsciiClean (s : String) : Bool :=
  asciiAll (fun c => !isDelimiter c) s

/-- The byte test for identifiers is sound. -/
theorem isIdentifier_of_isAsciiName {s : String} (h : isAsciiName s) : isIdentifier s := by
  rw [isAsciiName, Bool.and_eq_true] at h
  rw [isIdentifier, Bool.and_eq_true]
  exact ⟨h.1, all_of_asciiAll h.2⟩

/-- The byte test for delimiters is sound. -/
theorem breaksOut_of_isAsciiClean {s : String} (h : isAsciiClean s) : breaksOut s = false := by
  rw [breaksOut_eq_false_iff]
  intro c hc
  simpa using List.all_eq_true.1 (all_of_asciiAll h) c hc

end AtomicCss.Text
