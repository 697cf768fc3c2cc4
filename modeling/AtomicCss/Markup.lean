import AtomicCss.Ordered.Set
import AtomicCss.Text.Blank

/-!
# Class attributes in markup

Class tokens are found without parsing the markup: a class attribute is the word `class` behind a blank or
an opening angle bracket, or at the very start, followed by an equals sign and a value in quotes. Text
inside a value is never looked at again, and a value that is not closed is none.

* `Markup.attribute?` — the value of a class attribute at the start of a text;
* `Markup.values` — the values of all class attributes;
* `Markup.classes` — the distinct class tokens of a text.
-/

namespace AtomicCss.Markup

/-! ## One attribute -/

/-- The characters that stand for a letter without regard to case. The long s is a form of the letter
s. -/
def spellings : Char → List Char
  | 's' => ['s', 'S', '\u017f']
  | c => [c, c.toUpper]

/-- What follows a word, in any case, at the start of a text. -/
def afterWord? : List Char → List Char → Option (List Char)
  | [], cs => some cs
  | _ :: _, [] => none
  | w :: word, c :: cs => if (spellings w).contains c then afterWord? word cs else none

/-- What follows an equals sign and the blanks around it. -/
def afterEquals? (cs : List Char) : Option (List Char) :=
  match cs.dropWhile Text.isBlank with
  | '=' :: rest => some (rest.dropWhile Text.isBlank)
  | _ => none

/-- The text up to the next quote and what follows that quote. -/
def untilQuote? (quote : Char) : List Char → Option (List Char × List Char)
  | [] => none
  | c :: cs =>
    if c = quote then some ([], cs)
    else (untilQuote? quote cs).map fun (value, rest) => (c :: value, rest)

/-- A value in double or single quotes, and what follows it. -/
def quoted? : List Char → Option (List Char × List Char)
  | '"' :: cs => untilQuote? '"' cs
  | '\'' :: cs => untilQuote? '\'' cs
  | _ => none

/-- The value of a class attribute at the start of a text, and what follows it. -/
def attribute? (cs : List Char) : Option (List Char × List Char) :=
  ((afterWord? "class".toList cs).bind afterEquals?).bind quoted?

/-! ## What follows is shorter -/

/-- What follows a word is no longer than the text. -/
theorem length_afterWord? {word cs rest : List Char} (h : afterWord? word cs = some rest) :
    rest.length ≤ cs.length := by
  induction word generalizing cs with
  | nil =>
    cases h
    exact Nat.le_refl _
  | cons w word ih =>
    cases cs with
    | nil => cases h
    | cons c cs =>
      simp only [afterWord?] at h
      split at h
      · exact Nat.le_succ_of_le (ih h)
      · cases h

/-- What follows an equals sign is no longer than the text. -/
theorem length_afterEquals? {cs rest : List Char} (h : afterEquals? cs = some rest) :
    rest.length ≤ cs.length := by
  unfold afterEquals? at h
  split at h
  · rename_i tail ht
    cases h
    have hd := (List.dropWhile_suffix Text.isBlank (l := cs)).length_le
    have hr := (List.dropWhile_suffix Text.isBlank (l := tail)).length_le
    rw [ht, List.length_cons] at hd
    omega
  · cases h

/-- What follows a quote is no longer than the text. -/
theorem length_untilQuote? {quote : Char} {cs value rest : List Char}
    (h : untilQuote? quote cs = some (value, rest)) : rest.length ≤ cs.length := by
  induction cs generalizing value with
  | nil => cases h
  | cons c cs ih =>
    simp only [untilQuote?] at h
    split at h
    · cases h
      simp
    · simp only [Option.map_eq_some_iff, Prod.mk.injEq] at h
      obtain ⟨⟨v, r⟩, hv, -, rfl⟩ := h
      exact Nat.le_succ_of_le (ih hv)

/-- What follows a value in quotes is no longer than the text. -/
theorem length_quoted? {cs value rest : List Char} (h : quoted? cs = some (value, rest)) :
    rest.length ≤ cs.length := by
  unfold quoted? at h
  split at h
  · exact Nat.le_succ_of_le (length_untilQuote? h)
  · exact Nat.le_succ_of_le (length_untilQuote? h)
  · cases h

/-- What follows a class attribute is no longer than the text. -/
theorem length_attribute? {cs value rest : List Char} (h : attribute? cs = some (value, rest)) :
    rest.length ≤ cs.length := by
  unfold attribute? at h
  obtain ⟨mid, hm, hq⟩ := Option.bind_eq_some_iff.1 h
  obtain ⟨word, hw, he⟩ := Option.bind_eq_some_iff.1 hm
  exact Nat.le_trans (length_quoted? hq)
    (Nat.le_trans (length_afterEquals? he) (length_afterWord? hw))

/-! ## All attributes -/

/-- Whether a class attribute may begin behind a character. -/
def opensAttribute (c : Char) : Bool :=
  Text.isBlank c || c == '<'

/-- The values of the class attributes behind the first character of a text that opens one. -/
def innerValues : List Char → List (List Char)
  | [] => []
  | c :: cs =>
    if opensAttribute c then
      match h : attribute? cs with
      | some (value, rest) =>
        have : rest.length ≤ cs.length := length_attribute? h
        value :: innerValues rest
      | none => innerValues cs
    else innerValues cs
termination_by cs => cs.length

/-- The values of all class attributes of a text, in order. -/
def values (cs : List Char) : List (List Char) :=
  match attribute? cs with
  | some (value, rest) => value :: innerValues rest
  | none => innerValues cs

/-- The distinct class tokens of a text, in the order in which they first come. -/
def classes (text : String) : List String :=
  distinct ((values text.toList).flatMap fun value => Text.words (String.ofList value))

end AtomicCss.Markup
