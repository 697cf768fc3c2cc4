import AtomicCss.Proofs.Text.Delimiter
import AtomicCss.Proofs.Text.Nesting
import AtomicCss.Text.Authored
import AtomicCss.Text.Blank

/-!
# Writing text so that it is read as it is meant

Authored text is read with an underscore as a space, so whoever wants a text to come through writes its spaces as
underscores and puts a backslash in front of its underscores. Only one thing cannot be written in this way, a backslash
that a space follows: its encoding is that of an underscore (`decodeSpaces_encodeSpaces`).

Neither reading nor writing touches any other character. So brackets, delimiters and blanks are seen alike in both
texts, and a word without underscores and backslashes begins the one exactly if it begins the other.
-/

namespace AtomicCss.Text

/-! ## Reading -/

/-- A predicate that does not see the characters that reading and writing exchange. -/
def SkipsSpaces (p : Char → Bool) : Prop :=
  p '_' = false ∧ p ' ' = false ∧ p '\\' = false

theorem skipsSpaces_isBracket : SkipsSpaces isBracket :=
  ⟨rfl, rfl, rfl⟩

theorem skipsSpaces_isDelimiter : SkipsSpaces isDelimiter :=
  ⟨rfl, rfl, rfl⟩

theorem filter_decodeChars {p : Char → Bool} (hp : SkipsSpaces p) (cs : List Char) :
    (decodeChars cs).filter p = cs.filter p := by
  obtain ⟨hunderscore, hspace, hbackslash⟩ := hp
  fun_induction decodeChars cs with
  | case1 => rfl
  | case2 cs ih => simp [hunderscore, hbackslash, ih]
  | case3 c cs _ ih =>
    split
    · rename_i hc
      simp [hc, hunderscore, hspace, ih]
    · rw [List.filter_cons, List.filter_cons, ih]

theorem breaksOut_eq_filter (s : String) : breaksOut s = !(s.toList.filter isDelimiter).isEmpty := by
  rw [Bool.eq_iff_iff, breaksOut]
  simp [List.any_eq_true]

/-- **Decoding neither adds a delimiter nor takes one away.** -/
@[simp] theorem breaksOut_decodeSpaces (s : String) : breaksOut (decodeSpaces s) = breaksOut s := by
  rw [breaksOut_eq_filter, decodeSpaces, String.toList_ofList, filter_decodeChars skipsSpaces_isDelimiter,
    ← breaksOut_eq_filter]

theorem isBalanced_decodeSpaces (s : String) : isBalanced (decodeSpaces s) = isBalanced s := by
  refine isBalanced_congr ?_
  rw [decodeSpaces, String.toList_ofList, filter_decodeChars skipsSpaces_isBracket]

theorem nested_decodeSpaces {s : String} : Nested (decodeSpaces s) ↔ Nested s := by
  refine nested_congr ?_
  rw [decodeSpaces, String.toList_ofList, filter_decodeChars skipsSpaces_isBracket]

/-- What is read as blanks is written with blanks and underscores, and nothing else is. -/
theorem isBlank_decodeChars_iff {cs : List Char} :
    (∀ c ∈ decodeChars cs, isBlank c = true) ↔ ∀ c ∈ cs, isBlank c = true ∨ c = '_' := by
  fun_induction decodeChars cs with
  | case1 => simp
  | case2 cs _ =>
    -- neither the underscore that is meant nor the backslash in front of it is a blank
    exact iff_of_false (fun h => absurd (h '_' List.mem_cons_self) (by decide))
      (fun h => absurd (h '\\' List.mem_cons_self) (by decide))
  | case3 c cs _ ih =>
    rw [List.forall_mem_cons, List.forall_mem_cons, ih]
    refine and_congr_left fun _ => ?_
    split
    · rename_i hunderscore
      exact iff_of_true (by decide) (.inr hunderscore)
    · rename_i hne
      exact ⟨.inl, fun h => h.resolve_right hne⟩

/-! ## Writing -/

/-- Characters with every space made an underscore, and a backslash put in front of every underscore. -/
def encodeChars : List Char → List Char
  | [] => []
  | '_' :: cs => '\\' :: '_' :: encodeChars cs
  | ' ' :: cs => '_' :: encodeChars cs
  | c :: cs => c :: encodeChars cs

/-- Text with every space made an underscore, and a backslash put in front of every underscore. -/
def encodeSpaces (s : String) : String :=
  String.ofList (encodeChars s.toList)

theorem filter_encodeChars {p : Char → Bool} (hp : SkipsSpaces p) (cs : List Char) :
    (encodeChars cs).filter p = cs.filter p := by
  obtain ⟨hunderscore, hspace, hbackslash⟩ := hp
  fun_induction encodeChars cs with
  | case1 => rfl
  | case2 cs ih => simp [hunderscore, hbackslash, ih]
  | case3 cs ih => simp [hunderscore, hspace, ih]
  | case4 c cs _ _ ih => rw [List.filter_cons, List.filter_cons, ih]

theorem isBalanced_encodeSpaces (s : String) : isBalanced (encodeSpaces s) = isBalanced s := by
  refine isBalanced_congr ?_
  rw [encodeSpaces, String.toList_ofList, filter_encodeChars skipsSpaces_isBracket]

theorem breaksOut_encodeSpaces (s : String) : breaksOut (encodeSpaces s) = breaksOut s := by
  rw [breaksOut_eq_filter, encodeSpaces, String.toList_ofList, filter_encodeChars skipsSpaces_isDelimiter,
    ← breaksOut_eq_filter]

theorem mem_encodeChars {c : Char} (hc : c ≠ ' ') {cs : List Char} (h : c ∈ cs) : c ∈ encodeChars cs := by
  fun_induction encodeChars cs with
  | case1 => exact h
  | case2 cs ih =>
    rcases List.mem_cons.1 h with rfl | h
    · simp
    · simp [ih h]
  | case3 cs ih => exact List.mem_cons_of_mem _ (ih ((List.mem_cons.1 h).resolve_left hc))
  | case4 d cs _ _ ih =>
    rcases List.mem_cons.1 h with rfl | h
    · exact List.mem_cons_self
    · exact List.mem_cons_of_mem _ (ih h)

/-- A text with ink in it is written with ink. -/
theorem isAllBlank_encodeSpaces {s : String} (h : isAllBlank s = false) : isAllBlank (encodeSpaces s) = false := by
  obtain ⟨c, hc, hink⟩ := List.all_eq_false.1 h
  refine List.all_eq_false.2 ⟨c, ?_, hink⟩
  rw [encodeSpaces, String.toList_ofList]
  refine mem_encodeChars ?_ hc
  rintro rfl
  exact hink (by decide)

/-- What begins the written text without underscores and backslashes begins the text itself. -/
theorem prefix_of_prefix_encodeChars {start cs : List Char} (hunderscore : '_' ∉ start) (hbackslash : '\\' ∉ start)
    (h : start <+: encodeChars cs) : start <+: cs := by
  fun_induction encodeChars cs generalizing start with
  | case1 => exact h
  | case2 cs ih =>
    rcases List.prefix_cons_iff.1 h with rfl | ⟨rest, rfl, -⟩
    · exact List.nil_prefix
    · exact absurd List.mem_cons_self hbackslash
  | case3 cs ih =>
    rcases List.prefix_cons_iff.1 h with rfl | ⟨rest, rfl, -⟩
    · exact List.nil_prefix
    · exact absurd List.mem_cons_self hunderscore
  | case4 c cs _ _ ih =>
    rcases List.prefix_cons_iff.1 h with rfl | ⟨rest, rfl, hrest⟩
    · exact List.nil_prefix
    · refine List.cons_prefix_cons.2 ⟨rfl, ih ?_ ?_ hrest⟩
      · exact fun hmem => hunderscore (List.mem_cons_of_mem _ hmem)
      · exact fun hmem => hbackslash (List.mem_cons_of_mem _ hmem)

/-! ## Reading what was written -/

/-- A backslash stands for itself unless an underscore follows. -/
theorem decodeChars_backslash {cs : List Char} (h : cs.head? ≠ some '_') :
    decodeChars ('\\' :: cs) = '\\' :: decodeChars cs := by
  rw [decodeChars.eq_def]
  split
  · contradiction
  · rename_i heq
    obtain ⟨-, rfl⟩ := List.cons.inj heq
    exact absurd rfl h
  · rename_i heq
    obtain ⟨rfl, rfl⟩ := List.cons.inj heq
    rfl

/-- Only a space is written with an underscore in front. -/
theorem head?_encodeChars {cs : List Char} (h : cs.head? ≠ some ' ') : (encodeChars cs).head? ≠ some '_' := by
  fun_cases encodeChars cs with
  | case1 => simp
  | case2 cs => simp
  | case3 cs => exact absurd rfl h
  | case4 c cs hc _ => simpa using hc

theorem decodeChars_append {cs : List Char} (hunderscore : '_' ∉ cs) (hbackslash : '\\' ∉ cs) (rest : List Char) :
    decodeChars (cs ++ rest) = cs ++ decodeChars rest := by
  induction cs with
  | nil => rfl
  | cons c cs ih =>
    obtain ⟨hc, hcs⟩ := not_or.1 (List.mem_cons.not.1 hunderscore)
    obtain ⟨hc', hcs'⟩ := not_or.1 (List.mem_cons.not.1 hbackslash)
    rw [List.cons_append, decodeChars_cons _ (Ne.symm hc) (Ne.symm hc'), ih hcs hcs', List.cons_append]

/-- What stands in front of the first underscore or backslash is meant as it stands. -/
theorem decodeSpaces_append {s : String} (hunderscore : '_' ∉ s.toList) (hbackslash : '\\' ∉ s.toList) (t : String) :
    decodeSpaces (s ++ t) = s ++ decodeSpaces t := by
  apply String.toList_injective
  rw [decodeSpaces, decodeSpaces, String.toList_append, String.toList_ofList, String.toList_append,
    String.toList_ofList, decodeChars_append hunderscore hbackslash]

/-- A text without underscores and backslashes is meant as it stands. -/
theorem decodeSpaces_of_not_mem {s : String} (hunderscore : '_' ∉ s.toList) (hbackslash : '\\' ∉ s.toList) :
    decodeSpaces s = s := by
  have happend := decodeSpaces_append hunderscore hbackslash ""
  rwa [String.append_empty, show decodeSpaces "" = "" from rfl, String.append_empty] at happend

/-- **What was written is read as it was meant**, unless a space follows a backslash. -/
theorem decodeChars_encodeChars {cs : List Char} (h : ¬ ['\\', ' '] <:+: cs) :
    decodeChars (encodeChars cs) = cs := by
  fun_induction encodeChars cs with
  | case1 => rfl
  | case2 cs ih => rw [decodeChars, ih fun hinfix => h (List.infix_cons hinfix)]
  | case3 cs ih =>
    have hih := ih fun hinfix => h (List.infix_cons hinfix)
    simp [decodeChars, hih]
  | case4 c cs hc _ ih =>
    have hih := ih fun hinfix => h (List.infix_cons hinfix)
    by_cases hbackslash : c = '\\'
    · subst hbackslash
      rw [decodeChars_backslash (head?_encodeChars ?_), hih]
      -- a space behind the backslash is what is excluded
      intro hspace
      obtain ⟨rest, rfl⟩ := List.head?_eq_some_iff.1 hspace
      exact h (List.IsPrefix.isInfix ⟨rest, rfl⟩)
    · rw [decodeChars_cons _ hc hbackslash, hih]

theorem decodeSpaces_encodeSpaces {s : String} (h : ¬ ['\\', ' '] <:+: s.toList) :
    decodeSpaces (encodeSpaces s) = s := by
  rw [decodeSpaces, encodeSpaces, String.toList_ofList, decodeChars_encodeChars h, String.ofList_toList]

end AtomicCss.Text
