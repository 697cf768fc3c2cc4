import AtomicCss.Markup
import AtomicCss.Proofs.Compiler.Redundancy
import AtomicCss.Proofs.Text.Words
import Mathlib.Data.List.Forall2
import Mathlib.Data.List.TakeWhile

/-!
# The class attributes of a text

How a class attribute is written, and which of the places where one seems to begin count: a scan goes from the start of
the text to its end, takes the attribute at the current place and goes on behind its closing quote or, where there is
none, goes one character further. An attribute whose value is not closed is none.

## The architecture

* **`Opening`**, **`Attribute`** — a class attribute up to its value, and with a value that is closed.
  `attribute?_text_append` says what is read at an opening, `attribute?_eq_some_iff` that nothing else is an attribute.
* **`Scan`** — the scan as a relation between a text and the values found in it. `scan_iff` says that `values` and
  `innerValues` are its results at the start of a text and inside of one.
* **`innerValues_inert_append`**, **`innerValues_text_append`** — text in which no attribute begins is passed over;
  so is the opening of a value.
* **`classes_come_from_scan`** — the class tokens of a text are the words of the values found by the scan.
-/

namespace AtomicCss.Markup

open Text (isBlank)

/-! ## How an attribute is written -/

/-- The spellings of the letters of the word `class`: lower and upper case, and the long s for the letter s. -/
def classLetters : List (List Char) :=
  [['c', 'C'], ['l', 'L'], ['a', 'A'], ['s', 'S', '\u017f'], ['s', 'S', '\u017f']]

/-- The spellings of the first letter of the word `class`. -/
def firstLetters : List Char :=
  ['c', 'C']

/-- A class attribute up to its value: the word `class` in any case, an equals sign with blanks around it, and a
quote. -/
structure Opening where
  word : List Char
  before : List Char
  after : List Char
  quote : Char
  spelled : List.Forall₂ (· ∈ ·) word classLetters
  blank_before : ∀ c ∈ before, isBlank c = true
  blank_after : ∀ c ∈ after, isBlank c = true
  isQuote : quote = '"' ∨ quote = '\''

/-- A class attribute with its value, which ends at the first quote that is like the opening one. -/
structure Attribute extends Opening where
  value : List Char
  closed : quote ∉ value

def Opening.text (opening : Opening) : List Char :=
  opening.word ++ opening.before ++ '=' :: (opening.after ++ [opening.quote])

def Attribute.text (a : Attribute) : List Char :=
  a.toOpening.text ++ (a.value ++ [a.quote])

/-! ## Reading an attribute -/

section Reading

variable {word spelled before after cs value rest : List Char} {quote : Char}

theorem map_spellings_class : "class".toList.map spellings = classLetters := by
  decide

theorem afterWord?_append (h : List.Forall₂ (· ∈ ·) spelled (word.map spellings)) (cs : List Char) :
    afterWord? word (spelled ++ cs) = some cs := by
  induction word generalizing spelled with
  | nil =>
    cases h
    rfl
  | cons w word ih =>
    cases h with
    | cons hletter hword => rw [List.cons_append, afterWord?, if_pos (List.contains_iff_mem.2 hletter), ih hword]

theorem exists_spelled_of_afterWord? (h : afterWord? word cs = some rest) :
    ∃ spelled, List.Forall₂ (· ∈ ·) spelled (word.map spellings) ∧ cs = spelled ++ rest := by
  induction word generalizing cs with
  | nil =>
    cases h
    exact ⟨[], .nil, rfl⟩
  | cons w word ih =>
    cases cs with
    | nil => cases h
    | cons c cs =>
      simp only [afterWord?] at h
      split at h
      · rename_i hletter
        obtain ⟨spelled, hspelled, rfl⟩ := ih h
        exact ⟨c :: spelled, .cons (List.contains_iff_mem.1 hletter) hspelled, rfl⟩
      · cases h

theorem dropWhile_isBlank_append (hblank : ∀ c ∈ before, isBlank c = true)
    (hcs : ∀ c ∈ cs.head?, isBlank c = false) : (before ++ cs).dropWhile isBlank = cs := by
  rw [List.dropWhile_append_of_pos hblank]
  cases cs with
  | nil => rfl
  | cons c cs => exact List.dropWhile_cons_of_neg (by simp [hcs c rfl])

theorem afterEquals?_append (hbefore : ∀ c ∈ before, isBlank c = true) (hafter : ∀ c ∈ after, isBlank c = true)
    (hrest : ∀ c ∈ rest.head?, isBlank c = false) : afterEquals? (before ++ '=' :: (after ++ rest)) = some rest := by
  have hequals : (before ++ '=' :: (after ++ rest)).dropWhile isBlank = '=' :: (after ++ rest) :=
    dropWhile_isBlank_append hbefore (by rintro c ⟨⟩; decide)
  rw [afterEquals?, hequals]
  exact congrArg some (dropWhile_isBlank_append hafter hrest)

theorem exists_blanks_of_afterEquals? (h : afterEquals? cs = some rest) :
    ∃ before after, (∀ c ∈ before, isBlank c = true) ∧ (∀ c ∈ after, isBlank c = true) ∧
      cs = before ++ '=' :: (after ++ rest) := by
  unfold afterEquals? at h
  split at h
  · rename_i tail htail
    cases h
    refine ⟨cs.takeWhile isBlank, tail.takeWhile isBlank, fun c => List.mem_takeWhile_imp,
      fun c => List.mem_takeWhile_imp, ?_⟩
    rw [List.takeWhile_append_dropWhile, ← htail, List.takeWhile_append_dropWhile]
  · cases h

theorem untilQuote?_append (h : quote ∉ value) (rest : List Char) :
    untilQuote? quote (value ++ quote :: rest) = some (value, rest) := by
  induction value with
  | nil => exact if_pos rfl
  | cons c value ih =>
    obtain ⟨hc, hvalue⟩ := not_or.1 (List.mem_cons.not.1 h)
    rw [List.cons_append, untilQuote?, if_neg (Ne.symm hc), ih hvalue]
    rfl

theorem eq_append_of_untilQuote? (h : untilQuote? quote cs = some (value, rest)) :
    quote ∉ value ∧ cs = value ++ quote :: rest := by
  induction cs generalizing value with
  | nil => cases h
  | cons c cs ih =>
    simp only [untilQuote?] at h
    split at h
    · rename_i hc
      cases h
      exact ⟨List.not_mem_nil, by rw [hc, List.nil_append]⟩
    · rename_i hc
      simp only [Option.map_eq_some_iff, Prod.mk.injEq] at h
      obtain ⟨⟨v, r⟩, hv, rfl, rfl⟩ := h
      obtain ⟨hquote, rfl⟩ := ih hv
      exact ⟨List.mem_cons.not.2 (not_or.2 ⟨Ne.symm hc, hquote⟩), rfl⟩

theorem quoted?_cons (h : quote = '"' ∨ quote = '\'') (cs : List Char) :
    quoted? (quote :: cs) = untilQuote? quote cs := by
  rcases h with rfl | rfl <;> rfl

theorem exists_quote_of_quoted? (h : quoted? cs = some (value, rest)) :
    ∃ quote tail, (quote = '"' ∨ quote = '\'') ∧ cs = quote :: tail ∧
      untilQuote? quote tail = some (value, rest) := by
  unfold quoted? at h
  split at h
  · exact ⟨_, _, .inl rfl, rfl, h⟩
  · exact ⟨_, _, .inr rfl, rfl, h⟩
  · cases h

/-- **At an opening, what is read is what stands up to its quote.** -/
theorem attribute?_text_append (opening : Opening) (cs : List Char) :
    attribute? (opening.text ++ cs) = untilQuote? opening.quote cs := by
  have htext : opening.text ++ cs =
      opening.word ++ (opening.before ++ '=' :: (opening.after ++ opening.quote :: cs)) := by
    simp [Opening.text]
  have hword : afterWord? "class".toList (opening.text ++ cs) =
      some (opening.before ++ '=' :: (opening.after ++ opening.quote :: cs)) := by
    rw [htext]
    exact afterWord?_append (map_spellings_class ▸ opening.spelled) _
  have hquote : ∀ c ∈ (opening.quote :: cs).head?, isBlank c = false := by
    rintro c ⟨⟩
    rcases opening.isQuote with h | h <;> rw [h] <;> decide
  rw [attribute?, hword, Option.bind_some, afterEquals?_append opening.blank_before opening.blank_after hquote,
    Option.bind_some, quoted?_cons opening.isQuote]

/-- **Nothing but an attribute is read**, and what follows it is left. -/
theorem attribute?_eq_some_iff :
    attribute? cs = some (value, rest) ↔ ∃ a : Attribute, a.value = value ∧ cs = a.text ++ rest := by
  constructor
  · intro h
    unfold attribute? at h
    obtain ⟨mid, hmid, hquoted⟩ := Option.bind_eq_some_iff.1 h
    obtain ⟨tail, hword, hequals⟩ := Option.bind_eq_some_iff.1 hmid
    obtain ⟨spelled, hspelled, rfl⟩ := exists_spelled_of_afterWord? hword
    obtain ⟨before, after, hbefore, hafter, rfl⟩ := exists_blanks_of_afterEquals? hequals
    obtain ⟨quote, tail, hquote, rfl, huntil⟩ := exists_quote_of_quoted? hquoted
    obtain ⟨hclosed, rfl⟩ := eq_append_of_untilQuote? huntil
    rw [map_spellings_class] at hspelled
    refine ⟨⟨⟨spelled, before, after, quote, hspelled, hbefore, hafter, hquote⟩, value, hclosed⟩, rfl, ?_⟩
    simp [Attribute.text, Opening.text]
  · rintro ⟨a, rfl, rfl⟩
    have htext : a.text ++ rest = a.toOpening.text ++ (a.value ++ a.quote :: rest) := by
      simp [Attribute.text]
    rw [htext, attribute?_text_append, untilQuote?_append a.closed]

/-- The value at an opening is read only if it is closed. -/
theorem attribute?_text_append_eq_none {opening : Opening} (h : opening.quote ∉ cs) :
    attribute? (opening.text ++ cs) = none := by
  rw [attribute?_text_append, Option.eq_none_iff_forall_ne_some]
  rintro ⟨value, rest⟩ huntil
  obtain ⟨-, rfl⟩ := eq_append_of_untilQuote? huntil
  exact h (List.mem_append_right _ List.mem_cons_self)

theorem attribute?_cons_eq_none {c : Char} (h : c ∉ firstLetters) (cs : List Char) : attribute? (c :: cs) = none := by
  have hclass : "class".toList = 'c' :: "lass".toList := by decide
  have hletters : spellings 'c' = firstLetters := by decide
  have hword : afterWord? "class".toList (c :: cs) = none := by
    rw [hclass, afterWord?, hletters, if_neg (List.contains_iff_mem.not.2 h)]
  rw [attribute?, hword]
  rfl

end Reading

/-! ## The scan -/

/-- What stands in front of an attribute that counts: nothing at the start of the text, and in every place a blank or
an opening angle bracket. -/
inductive Boundary : Bool → List Char → Prop where
  | start : Boundary true []
  | blank {atStart : Bool} {c : Char} (h : isBlank c = true) : Boundary atStart [c]
  | bracket {atStart : Bool} : Boundary atStart ['<']

/-- A class attribute counts at the start of what is left of a text. -/
def Matches (atStart : Bool) (cs value rest : List Char) : Prop :=
  ∃ (front : List Char) (a : Attribute), Boundary atStart front ∧ a.value = value ∧ cs = front ++ a.text ++ rest

/-- The values found by a scan through what is left of a text: an attribute is taken where there is one, and the scan
goes on behind it; otherwise it goes one character further. -/
inductive Scan : Bool → List Char → List (List Char) → Prop where
  | done {atStart : Bool} : Scan atStart [] []
  | hit {atStart : Bool} {cs value rest : List Char} {found : List (List Char)}
      (hmatch : Matches atStart cs value rest) (hscan : Scan false rest found) : Scan atStart cs (value :: found)
  | skip {atStart : Bool} {c : Char} {cs : List Char} {found : List (List Char)}
      (hnot : ∀ value rest, ¬ Matches atStart (c :: cs) value rest) (hscan : Scan false cs found) :
      Scan atStart (c :: cs) found

/-- The values of the class attributes of a text, or of what is left of one. -/
def valuesFrom (atStart : Bool) (cs : List Char) : List (List Char) :=
  if atStart then values cs else innerValues cs

section Steps

variable {atStart : Bool} {c : Char} {front cs value rest : List Char} {found : List (List Char)}

theorem opensAttribute_iff : opensAttribute c = true ↔ isBlank c = true ∨ c = '<' := by
  rw [opensAttribute, Bool.or_eq_true, beq_iff_eq]

theorem not_mem_of_opensAttribute (h : opensAttribute c = true) : c ∉ firstLetters := by
  intro hc
  simp only [firstLetters, List.mem_cons, List.not_mem_nil, or_false] at hc
  rcases hc with rfl | rfl <;> exact absurd h (by decide)

theorem innerValues_cons_of_attribute? (hc : opensAttribute c = true) (h : attribute? cs = some (value, rest)) :
    innerValues (c :: cs) = value :: innerValues rest := by
  rw [innerValues, if_pos hc]
  split
  · rename_i value' rest' h'
    cases h.symm.trans h'
    rfl
  · rename_i hnone
    cases h.symm.trans hnone

theorem innerValues_cons_of_none (h : opensAttribute c = true → attribute? cs = none) :
    innerValues (c :: cs) = innerValues cs := by
  rw [innerValues]
  split
  · rename_i hc
    split
    · rename_i hsome
      cases (h hc).symm.trans hsome
    · rfl
  · rfl

theorem valuesFrom_false (cs : List Char) : valuesFrom false cs = innerValues cs :=
  rfl

theorem valuesFrom_of_attribute? (h : attribute? cs = some (value, rest)) :
    valuesFrom true cs = value :: innerValues rest := by
  rw [valuesFrom, if_pos rfl, values, h]

/-- Only at the start of a text the attribute itself matters. -/
theorem valuesFrom_eq_innerValues (h : atStart = true → attribute? cs = none) :
    valuesFrom atStart cs = innerValues cs := by
  cases atStart with
  | false => rfl
  | true => rw [valuesFrom, if_pos rfl, values, h rfl]

theorem valuesFrom_nil : valuesFrom atStart [] = [] := by
  rw [valuesFrom_eq_innerValues fun _ => rfl, innerValues]

/-- Behind a boundary all places are alike. -/
theorem valuesFrom_cons (h : opensAttribute c = true) : valuesFrom atStart (c :: cs) = innerValues (c :: cs) :=
  valuesFrom_eq_innerValues fun _ => attribute?_cons_eq_none (not_mem_of_opensAttribute h) cs

/-- A boundary is nothing, at the start, or one character that opens attributes. -/
theorem Boundary.cases_eq (h : Boundary atStart front) :
    (atStart = true ∧ front = []) ∨ ∃ c, front = [c] ∧ opensAttribute c = true := by
  cases h with
  | start => exact .inl ⟨rfl, rfl⟩
  | @blank _ c h => exact .inr ⟨c, rfl, opensAttribute_iff.2 (.inl h)⟩
  | bracket => exact .inr ⟨'<', rfl, opensAttribute_iff.2 (.inr rfl)⟩

theorem boundary_of_opensAttribute (h : opensAttribute c = true) : Boundary atStart [c] := by
  rcases opensAttribute_iff.1 h with h | rfl
  · exact .blank h
  · exact .bracket

theorem matches_of_attribute? (h : attribute? cs = some (value, rest)) : Matches true cs value rest := by
  obtain ⟨a, ha, rfl⟩ := attribute?_eq_some_iff.1 h
  exact ⟨[], a, .start, ha, rfl⟩

theorem matches_cons (hc : opensAttribute c = true) (h : attribute? cs = some (value, rest)) :
    Matches atStart (c :: cs) value rest := by
  obtain ⟨a, ha, rfl⟩ := attribute?_eq_some_iff.1 h
  exact ⟨[c], a, boundary_of_opensAttribute hc, ha, rfl⟩

/-- **Where an attribute counts, its value is found**, and the search goes on behind it. -/
theorem valuesFrom_of_matches (h : Matches atStart cs value rest) :
    valuesFrom atStart cs = value :: innerValues rest := by
  obtain ⟨front, a, hfront, ha, rfl⟩ := h
  have hread : attribute? (a.text ++ rest) = some (value, rest) := attribute?_eq_some_iff.2 ⟨a, ha, rfl⟩
  rcases hfront.cases_eq with ⟨rfl, rfl⟩ | ⟨c, rfl, hc⟩
  · exact valuesFrom_of_attribute? hread
  · rw [List.append_assoc, List.singleton_append, valuesFrom_cons hc]
    exact innerValues_cons_of_attribute? hc hread

/-- **Where no attribute counts, the search goes one character further.** -/
theorem valuesFrom_of_not_matches (h : ∀ value rest, ¬ Matches atStart (c :: cs) value rest) :
    valuesFrom atStart (c :: cs) = innerValues cs := by
  have hstart (hatStart : atStart = true) : attribute? (c :: cs) = none := by
    subst hatStart
    exact Option.eq_none_iff_forall_ne_some.2 fun p hp => h p.1 p.2 (matches_of_attribute? hp)
  have hinner (hc : opensAttribute c = true) : attribute? cs = none :=
    Option.eq_none_iff_forall_ne_some.2 fun p hp => h p.1 p.2 (matches_cons hc hp)
  rw [valuesFrom_eq_innerValues hstart, innerValues_cons_of_none hinner]

theorem Attribute.length_text_pos (a : Attribute) : 0 < a.text.length := by
  simp only [Attribute.text, List.length_append, List.length_singleton]
  omega

theorem Matches.length_lt (h : Matches atStart cs value rest) : rest.length < cs.length := by
  obtain ⟨front, a, -, -, rfl⟩ := h
  have hpos := a.length_text_pos
  simp only [List.length_append]
  omega

theorem Scan.eq_valuesFrom (h : Scan atStart cs found) : valuesFrom atStart cs = found := by
  induction h with
  | done => exact valuesFrom_nil
  | hit hmatch _ ih => rw [valuesFrom_of_matches hmatch, ← valuesFrom_false, ih]
  | skip hnot _ ih => rw [valuesFrom_of_not_matches hnot, ← valuesFrom_false, ih]

/-- A scan always comes to an end, since every step leaves less of the text. -/
theorem exists_scan (atStart : Bool) (cs : List Char) : ∃ found, Scan atStart cs found := by
  by_cases h : ∃ value rest, Matches atStart cs value rest
  · obtain ⟨value, rest, hmatch⟩ := h
    have hlt := hmatch.length_lt
    obtain ⟨found, hfound⟩ := exists_scan false rest
    exact ⟨value :: found, .hit hmatch hfound⟩
  · cases cs with
    | nil => exact ⟨[], .done⟩
    | cons c cs =>
      obtain ⟨found, hfound⟩ := exists_scan false cs
      exact ⟨found, .skip (fun value rest hmatch => h ⟨value, rest, hmatch⟩) hfound⟩
  termination_by cs.length

/-- **The values of a text are those found by the scan.** -/
theorem scan_iff : Scan atStart cs found ↔ valuesFrom atStart cs = found := by
  refine ⟨Scan.eq_valuesFrom, ?_⟩
  rintro rfl
  obtain ⟨found, hfound⟩ := exists_scan atStart cs
  rwa [hfound.eq_valuesFrom]

end Steps

/-! ## Text in which no attribute begins -/

/-- A text begins with a character other than the first letter of `class`. -/
def beginsApart : List Char → Bool
  | [] => false
  | c :: _ => !firstLetters.contains c

/-- In a text no attribute begins, whatever stands behind it: every blank and every opening angle bracket is followed
by a character other than the first letter of `class`. -/
def isInert : List Char → Bool
  | [] => true
  | c :: cs => (!opensAttribute c || beginsApart cs) && isInert cs

section Inert

variable {atStart : Bool} {c : Char} {front word blanks cs rest : List Char}

theorem attribute?_append_eq_none (h : beginsApart front = true) (cs : List Char) :
    attribute? (front ++ cs) = none := by
  cases front with
  | nil => cases h
  | cons c front => exact attribute?_cons_eq_none (by simpa [beginsApart] using h) _

theorem isInert_cons : isInert (c :: cs) = true ↔
    (opensAttribute c = true → beginsApart cs = true) ∧ isInert cs = true := by
  rw [isInert, Bool.and_eq_true, Bool.or_eq_true, Bool.not_eq_true', ← Bool.not_eq_true, imp_iff_not_or]

/-- **Text in which no attribute begins is passed over.** -/
theorem innerValues_inert_append (h : isInert front = true) (cs : List Char) :
    innerValues (front ++ cs) = innerValues cs := by
  induction front with
  | nil => rfl
  | cons c front ih =>
    obtain ⟨hc, hfront⟩ := isInert_cons.1 h
    rw [List.cons_append, innerValues_cons_of_none fun hopens => attribute?_append_eq_none (hc hopens) cs, ih hfront]

theorem isInert_append_of_not_opens (hword : ∀ c ∈ word, opensAttribute c = false) (hcs : isInert cs = true) :
    isInert (word ++ cs) = true := by
  induction word with
  | nil => exact hcs
  | cons c word ih =>
    obtain ⟨hc, hword⟩ := List.forall_mem_cons.1 hword
    exact isInert_cons.2 ⟨fun hopens => absurd (hc.symm.trans hopens) Bool.false_ne_true, ih hword⟩

theorem isInert_blanks_append (hblanks : ∀ c ∈ blanks, isBlank c = true) (happart : beginsApart cs = true)
    (hcs : isInert cs = true) : isInert (blanks ++ cs) = true := by
  induction blanks with
  | nil => exact hcs
  | cons b blanks ih =>
    obtain ⟨-, hblanks⟩ := List.forall_mem_cons.1 hblanks
    refine isInert_cons.2 ⟨fun _ => ?_, ih hblanks⟩
    -- behind a blank stands another one, or what stands behind all of them
    cases blanks with
    | nil => exact happart
    | cons d blanks =>
      have hd := not_mem_of_opensAttribute (opensAttribute_iff.2 (.inl (hblanks d List.mem_cons_self)))
      simpa [beginsApart] using hd

theorem exists_mem_of_forall₂ {letters : List (List Char)} (h : List.Forall₂ (· ∈ ·) word letters) (hc : c ∈ word) :
    ∃ spellings ∈ letters, c ∈ spellings := by
  induction h with
  | nil => cases hc
  | cons hletter _ ih =>
    rcases List.mem_cons.1 hc with rfl | hc
    · exact ⟨_, List.mem_cons_self, hletter⟩
    · obtain ⟨spellings, hspellings, hmem⟩ := ih hc
      exact ⟨spellings, List.mem_cons_of_mem _ hspellings, hmem⟩

theorem Opening.not_opens_of_mem_word (opening : Opening) (hc : c ∈ opening.word) : opensAttribute c = false := by
  have hall : (classLetters.all fun spellings => spellings.all fun c => !opensAttribute c) = true := by decide
  obtain ⟨spellings, hspellings, hmem⟩ := exists_mem_of_forall₂ opening.spelled hc
  simpa using List.all_eq_true.1 (List.all_eq_true.1 hall spellings hspellings) c hmem

theorem Opening.isInert_text (opening : Opening) : isInert opening.text = true := by
  have hquote : isInert [opening.quote] = true ∧ beginsApart [opening.quote] = true := by
    rcases opening.isQuote with h | h <;> rw [h] <;> decide
  have hafter : isInert ('=' :: (opening.after ++ [opening.quote])) = true :=
    isInert_cons.2 ⟨fun hopens => absurd hopens (by decide),
      isInert_blanks_append opening.blank_after hquote.2 hquote.1⟩
  rw [Opening.text, List.append_assoc]
  exact isInert_append_of_not_opens (fun _ => opening.not_opens_of_mem_word)
    (isInert_blanks_append opening.blank_before rfl hafter)

/-- **A value that is not closed hides nothing**: the search goes on behind the quote that opens it. -/
theorem innerValues_text_append (opening : Opening) (cs : List Char) :
    innerValues (opening.text ++ cs) = innerValues cs :=
  innerValues_inert_append opening.isInert_text cs

theorem valuesFrom_unclosed {opening : Opening} (hfront : Boundary atStart front) (hopen : opening.quote ∉ rest) :
    valuesFrom atStart (front ++ opening.text ++ rest) = innerValues rest := by
  have hnone := attribute?_text_append_eq_none hopen
  rcases hfront.cases_eq with ⟨rfl, rfl⟩ | ⟨c, rfl, hc⟩
  · rw [List.nil_append, valuesFrom_eq_innerValues fun _ => hnone, innerValues_text_append]
  · rw [List.append_assoc, List.singleton_append, valuesFrom_cons hc, innerValues_cons_of_none fun _ => hnone,
      innerValues_text_append]

end Inert

/-! ## Class tokens -/

/-- The class tokens of a text by the scan: the words of all values that it finds, without repetitions. -/
def Extracts (cs : List Char) (tokens : List String) : Prop :=
  ∃ (found : List (List Char)) (words : List (List String)),
    Scan true cs found ∧ List.Forall₂ Text.Splits found words ∧ tokens = words.flatten.eraseDups

theorem forall₂_splits_iff {found : List (List Char)} {words : List (List String)} :
    List.Forall₂ Text.Splits found words ↔ found.map (fun value => Text.words (String.ofList value)) = words := by
  have hsplits : Text.Splits = fun value ws => Text.words (String.ofList value) = ws :=
    funext₂ fun _ _ => propext Text.splits_iff
  have hequal (lists : List (List String)) : List.Forall₂ (· = ·) lists words ↔ lists = words := by
    rw [List.forall₂_eq_eq_eq]
  rw [hsplits, ← hequal, List.forall₂_map_left_iff]

theorem classes_eq_iff {text : String} {tokens : List String} :
    classes text = tokens ↔ Extracts text.toList tokens := by
  rw [classes, distinct_eq_eraseDups, List.flatMap_def]
  constructor
  · rintro rfl
    exact ⟨values text.toList, _, scan_iff.2 rfl, forall₂_splits_iff.2 rfl, rfl⟩
  · rintro ⟨found, words, hscan, hsplits, rfl⟩
    obtain rfl : values text.toList = found := scan_iff.1 hscan
    rw [← forall₂_splits_iff.1 hsplits]

/-- **The class tokens of a text are the words of the values found by the scan**, each once and in first-seen order. The
scan passes over an opening whose value is not closed as if it were not there, and finds what stands behind it; and
behind an attribute that counts it goes on with what follows the closing quote, whatever stands in the value. -/
theorem classes_come_from_scan :
    (∀ (text : String) (tokens : List String), classes text = tokens ↔ Extracts text.toList tokens) ∧
    (∀ (atStart : Bool) (front : List Char) (opening : Opening) (rest : List Char) (found : List (List Char)),
      Boundary atStart front → opening.quote ∉ rest →
        (Scan atStart (front ++ opening.text ++ rest) found ↔ Scan false rest found)) ∧
    ∀ (atStart : Bool) (front : List Char) (a : Attribute) (rest : List Char) (found : List (List Char)),
      Boundary atStart front →
        (Scan atStart (front ++ a.text ++ rest) found ↔ ∃ later, found = a.value :: later ∧ Scan false rest later) := by
  refine ⟨fun text tokens => classes_eq_iff, fun atStart front opening rest found hfront hopen => ?_,
    fun atStart front a rest found hfront => ?_⟩
  · rw [scan_iff, scan_iff, valuesFrom_unclosed hfront hopen, valuesFrom_false]
  · have hmatch : Matches atStart (front ++ a.text ++ rest) a.value rest := ⟨front, a, hfront, rfl, rfl⟩
    simp only [scan_iff, valuesFrom_of_matches hmatch, valuesFrom_false]
    constructor
    · rintro rfl
      exact ⟨_, rfl, rfl⟩
    · rintro ⟨later, rfl, rfl⟩
      rfl

/-- A class attribute that is not closed stands in front of one that is; an attribute inside of a value, even though
it stands behind a blank, is passed over with it. -/
theorem late_class_is_found :
    ∃ opening : Opening, opening.text = "class=\"".toList ∧
      Boundary false [' '] ∧ opening.quote ∉ "broken <i class='late'>".toList ∧
      (∀ found, Scan false ([' '] ++ opening.text ++ "broken <i class='late'>".toList) found ↔
        Scan false "broken <i class='late'>".toList found) ∧
      Extracts "<p class=\"broken <i class='late'>".toList ["late"] ∧
      ∃ a : Attribute, a.text = "class=\"a class='b' c\"".toList ∧ Boundary true [] ∧
        ∀ found, Scan true ([] ++ a.text ++ " class=d".toList) found ↔
          ∃ later, found = "a class='b' c".toList :: later ∧ Scan false " class=d".toList later := by
  have hspace : Boundary false [' '] := .blank (by decide)
  have hopen : '"' ∉ "broken <i class='late'>".toList := by decide
  let opening : Opening := ⟨"class".toList, [], [], '"', by decide, List.forall_mem_nil _, List.forall_mem_nil _,
    .inl rfl⟩
  let a : Attribute := ⟨opening, "a class='b' c".toList, by decide⟩
  refine ⟨opening, by decide, hspace, hopen, fun found => ?_, ?_, a, by decide, .start, fun found => ?_⟩
  · exact classes_come_from_scan.2.1 false [' '] opening _ found hspace hopen
  · exact (classes_come_from_scan.1 "<p class=\"broken <i class='late'>" ["late"]).1 (by decide +kernel)
  · exact classes_come_from_scan.2.2 true [] a _ found .start

end AtomicCss.Markup
