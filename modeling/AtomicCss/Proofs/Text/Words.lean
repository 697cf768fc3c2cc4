import AtomicCss.Text.Blank
import Mathlib.Data.List.Basic

/-!
# The words of a text

The words of a text are its longest runs of characters that are not blank. `Splits` says so by reading a text from its
start, without cutting it: blanks, a word up to the next blank or the end, and what follows in the same way.

* **`splits_iff`** — cutting a text at its blanks comes to exactly these words.
* **`splits_intercalate`** — words that are joined by a blank are the words of the joined text.
-/

namespace AtomicCss.Text

/-- A text consists of blanks and words; a word is not empty, has no blank, and ends in front of a blank or at the end
of the text. -/
inductive Splits : List Char → List String → Prop where
  | blanks {blanks : List Char} (hblanks : ∀ c ∈ blanks, isBlank c = true) : Splits blanks []
  | word {blanks word rest : List Char} {words : List String} (hblanks : ∀ c ∈ blanks, isBlank c = true)
      (hne : word ≠ []) (hword : ∀ c ∈ word, isBlank c = false) (hrest : ∀ c ∈ rest.head?, isBlank c = true)
      (hwords : Splits rest words) : Splits (blanks ++ word ++ rest) (String.ofList word :: words)

/-! ## Fields -/

section Fields

variable {p : Char → Bool}

theorem fields_nil : fields p (String.ofList []) = [] :=
  rfl

/-- No field begins with a character at which the text is cut. -/
theorem fields_cons {c : Char} (h : p c = true) (cs : List Char) :
    fields p (String.ofList (c :: cs)) = fields p (String.ofList cs) := by
  rw [fields, fields, String.toList_ofList, String.toList_ofList, List.splitOnP_cons_eq_if_modifyHead, if_pos h]
  rfl

theorem fields_append {blanks : List Char} (h : ∀ c ∈ blanks, p c = true) (cs : List Char) :
    fields p (String.ofList (blanks ++ cs)) = fields p (String.ofList cs) := by
  induction blanks with
  | nil => rfl
  | cons c blanks ih =>
    obtain ⟨hc, hblanks⟩ := List.forall_mem_cons.1 h
    rw [List.cons_append, fields_cons hc, ih hblanks]

/-- A field reaches up to the next character at which the text is cut. -/
theorem fields_word_append {word rest : List Char} (hne : word ≠ []) (hword : ∀ c ∈ word, p c = false)
    (hrest : ∀ c ∈ rest.head?, p c = true) :
    fields p (String.ofList (word ++ rest)) = String.ofList word :: fields p (String.ofList rest) := by
  have hkept (pieces : List (List Char)) :
      (word :: pieces).filter (!·.isEmpty) = word :: pieces.filter (!·.isEmpty) :=
    List.filter_cons_of_pos (by simpa using hne)
  cases rest with
  | nil =>
    rw [List.append_nil, fields_nil, fields, String.toList_ofList, List.splitOnP_eq_singleton hword, hkept]
    rfl
  | cons c rest =>
    have hc : p c = true := hrest c rfl
    rw [fields_cons hc, fields, fields, String.toList_ofList, String.toList_ofList,
      List.splitOnP_append_cons_of_forall_mem hword _ hc, hkept, List.map_cons]

end Fields

/-! ## Words -/

variable {cs : List Char} {ws : List String}

theorem Splits.words_eq (h : Splits cs ws) : words (String.ofList cs) = ws := by
  induction h with
  | @blanks blanks hblanks =>
    rw [words, ← List.append_nil blanks, fields_append hblanks]
    exact fields_nil
  | word hblanks hne hword hrest _ ih =>
    rw [words, List.append_assoc, fields_append hblanks, fields_word_append hne hword hrest]
    exact congrArg _ ih

theorem Splits.cons_blank {c : Char} (hc : isBlank c = true) (h : Splits cs ws) : Splits (c :: cs) ws := by
  cases h with
  | blanks hblanks => exact .blanks (List.forall_mem_cons.2 ⟨hc, hblanks⟩)
  | word hblanks hne hword hrest hwords =>
    exact .word (List.forall_mem_cons.2 ⟨hc, hblanks⟩) hne hword hrest hwords

/-- Every text splits into words. Induction on the text: a character that is not blank makes a word of its own, unless
a word begins right behind it. -/
theorem exists_splits (cs : List Char) : ∃ ws, Splits cs ws := by
  induction cs with
  | nil => exact ⟨[], .blanks (List.forall_mem_nil _)⟩
  | cons c cs ih =>
    obtain ⟨ws, h⟩ := ih
    by_cases hc : isBlank c = true
    · exact ⟨ws, h.cons_blank hc⟩
    rw [Bool.not_eq_true] at hc
    have hown (hhead : ∀ d ∈ cs.head?, isBlank d = true) : ∃ ws, Splits (c :: cs) ws :=
      ⟨_, @Splits.word [] [c] cs ws (List.forall_mem_nil _) (List.cons_ne_nil _ _) (by simpa using hc) hhead h⟩
    cases h with
    | blanks hblanks => exact hown fun d hd => hblanks d (List.mem_of_mem_head? hd)
    | @word blanks word rest words hblanks hne hword hrest hwords =>
      cases blanks with
      | nil => exact ⟨_, @Splits.word [] (c :: word) rest words hblanks (List.cons_ne_nil _ _)
          (List.forall_mem_cons.2 ⟨hc, hword⟩) hrest hwords⟩
      | cons b blanks =>
        refine hown fun d hd => ?_
        obtain rfl : b = d := Option.some.inj hd
        exact hblanks b List.mem_cons_self

/-- **Cutting a text at its blanks comes to its words.** -/
theorem splits_iff : Splits cs ws ↔ words (String.ofList cs) = ws := by
  refine ⟨Splits.words_eq, ?_⟩
  rintro rfl
  obtain ⟨ws, hws⟩ := exists_splits cs
  rwa [hws.words_eq]

/-- **Words that are joined by a blank are the words of the joined text.** Induction on the words: behind the first
one stands a blank or nothing. -/
theorem splits_intercalate {ws : List String} (h : ∀ w ∈ ws, w ≠ "" ∧ ∀ c ∈ w.toList, isBlank c = false) :
    Splits ([' '].intercalate (ws.map String.toList)) ws := by
  induction ws with
  | nil => exact .blanks (List.forall_mem_nil _)
  | cons w ws ih =>
    obtain ⟨⟨hne, hword⟩, hws⟩ := List.forall_mem_cons.1 h
    have hcons {rest : List Char} (hrest : ∀ c ∈ rest.head?, isBlank c = true) (hwords : Splits rest ws) :
        Splits (w.toList ++ rest) (w :: ws) := by
      have hsplits := @Splits.word [] w.toList rest ws (List.forall_mem_nil _)
        (fun hnil => hne (String.toList_eq_nil_iff.1 hnil)) hword hrest hwords
      rwa [String.ofList_toList] at hsplits
    cases ws with
    | nil =>
      rw [List.map_singleton, List.intercalate_singleton, ← List.append_nil w.toList]
      exact hcons (by simp) (.blanks (List.forall_mem_nil _))
    | cons w' ws =>
      rw [List.map_cons, List.map_cons, List.intercalate_cons_cons, List.append_assoc]
      refine hcons (fun c hc => ?_) ((ih hws).cons_blank (by decide))
      obtain rfl : ' ' = c := Option.some.inj hc
      decide

end AtomicCss.Text
