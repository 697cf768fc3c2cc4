/-!
# Cutting texts

Class tokens, theme keys and file names are taken apart at fixed pieces of text: a start, an end,
the first or the last place where a separator stands. Every function says *which* place it cuts at,
and answers `none` when there is no such place.

* `after?`, `before?`, `enclosed?` — what remains without a given start, end, or both;
* `cut?` — the two sides of the first occurrence of a separator;
* `cutLast?` — the two sides of the last occurrence of a character.

Each cut loses nothing: `dropStart?_eq_some_iff`, `dropStop?_eq_some_iff`, `cutAt_eq_some` and
`cutAtLast_eq_some` give the text back from its parts.
-/

namespace AtomicCss.Text

/-! ## Starts and ends -/

/-- What follows `start` in a list that begins with it. -/
def dropStart? : List Char → List Char → Option (List Char)
  | [], cs => some cs
  | _ :: _, [] => none
  | d :: ds, c :: cs => if d = c then dropStart? ds cs else none

/-- What stands before `stop` in a list that ends with it. -/
def dropStop? (stop cs : List Char) : Option (List Char) :=
  (dropStart? stop.reverse cs.reverse).map List.reverse

/-- Whether a text begins with `start`. -/
def startsWith (start s : String) : Bool :=
  start.toList.isPrefixOf s.toList

/-- Whether a text ends with `stop`. -/
def endsWith (stop s : String) : Bool :=
  stop.toList.isSuffixOf s.toList

/-- What follows `start` in a text that begins with it. -/
def after? (start s : String) : Option String :=
  (dropStart? start.toList s.toList).map String.ofList

/-- What stands before `stop` in a text that ends with it. -/
def before? (stop s : String) : Option String :=
  (dropStop? stop.toList s.toList).map String.ofList

/-- What stands between `start` and `stop` in a text that begins with the one and, behind it, ends
with the other: a text too short to hold both has no inside. -/
def enclosed? (start stop s : String) : Option String :=
  (after? start s).bind (before? stop)

/-! ## Separators -/

/-- The two sides of the first place where the characters `sep` stand. -/
def cutAt (sep : List Char) : List Char → Option (List Char × List Char)
  | [] => if sep.isEmpty then some ([], []) else none
  | c :: cs =>
    match dropStart? sep (c :: cs) with
    | some rest => some ([], rest)
    | none => (cutAt sep cs).map fun (left, right) => (c :: left, right)

/-- The two sides of the last place where the character `sep` stands. -/
def cutAtLast (sep : Char) : List Char → Option (List Char × List Char)
  | [] => none
  | c :: cs =>
    match cutAtLast sep cs with
    | some (left, right) => some (c :: left, right)
    | none => if c = sep then some ([], cs) else none

/-- The two sides of the first occurrence of `sep` in a text. -/
def cut? (sep s : String) : Option (String × String) :=
  (cutAt sep.toList s.toList).map fun (left, right) => (String.ofList left, String.ofList right)

/-- The two sides of the last occurrence of the character `sep` in a text. -/
def cutLast? (sep : Char) (s : String) : Option (String × String) :=
  (cutAtLast sep s.toList).map fun (left, right) => (String.ofList left, String.ofList right)

/-- Whether `piece` occurs in a text. -/
def contains (piece s : String) : Bool :=
  (cut? piece s).isSome

/-- The pieces of a text between the occurrences of a character, empty ones included. -/
def pieces (sep : Char) (s : String) : List String :=
  (s.toList.splitOn sep).map String.ofList

/-! ## Nothing is lost -/

/-- A rest remains exactly if the list is `start` followed by it. -/
theorem dropStart?_eq_some_iff {start cs rest : List Char} :
    dropStart? start cs = some rest ↔ cs = start ++ rest := by
  induction start generalizing cs with
  | nil => simp [dropStart?]
  | cons d ds ih =>
    cases cs with
    | nil => simp [dropStart?]
    | cons c cs =>
      simp only [dropStart?, List.cons_append, List.cons.injEq]
      split
      · rename_i h
        simp [h, ih]
      · rename_i h
        simp [Ne.symm h]

/-- A front remains exactly if the list is this front followed by `stop`. -/
theorem dropStop?_eq_some_iff {stop cs front : List Char} :
    dropStop? stop cs = some front ↔ cs = front ++ stop := by
  simp only [dropStop?, Option.map_eq_some_iff, dropStart?_eq_some_iff]
  constructor
  · rintro ⟨rest, h, rfl⟩
    simpa using congrArg List.reverse h
  · rintro rfl
    exact ⟨front.reverse, by simp⟩

/-- The two sides and the separator between them are the whole list. -/
theorem cutAt_eq_some {sep cs left right : List Char} (h : cutAt sep cs = some (left, right)) :
    cs = left ++ sep ++ right := by
  induction cs generalizing left with
  | nil =>
    simp only [cutAt] at h
    split at h
    · rename_i hs
      cases h
      simpa using hs
    · cases h
  | cons c cs ih =>
    simp only [cutAt] at h
    split at h
    · rename_i rest hr
      cases h
      simpa using dropStart?_eq_some_iff.1 hr
    · simp only [Option.map_eq_some_iff, Prod.mk.injEq] at h
      obtain ⟨⟨l, r⟩, hl, rfl, rfl⟩ := h
      simp [ih hl]

/-- A list is cut at the first place where a separator stands: in front of it the last character of the separator does
not occur, neither before the separator nor inside of it. -/
theorem cutAt_append {init left : List Char} {last : Char} (hinit : last ∉ init) (hleft : last ∉ left)
    (rest : List Char) :
    cutAt (init ++ [last]) (left ++ (init ++ last :: rest)) = some (left, rest) := by
  have htake {front behind : List Char} (h : last ∉ front) :
      (front ++ last :: behind).takeWhile (· != last) = front := by
    have hfront : ∀ c ∈ front, (c != last) = true := by
      intro c hc
      rw [bne_iff_ne]
      rintro rfl
      exact h hc
    rw [List.takeWhile_append_of_pos hfront]
    simp
  induction left with
  | nil =>
    have hdrop : dropStart? (init ++ [last]) (init ++ last :: rest) = some rest :=
      dropStart?_eq_some_iff.2 (by simp)
    cases h : init ++ last :: rest with
    | nil => simp at h
    | cons c cs =>
      rw [h] at hdrop
      rw [List.nil_append, cutAt, hdrop]
  | cons c left ih =>
    have hdrop : dropStart? (init ++ [last]) (c :: left ++ (init ++ last :: rest)) = none := by
      rw [Option.eq_none_iff_forall_ne_some]
      intro rest' h
      -- both sides have the same characters up to the first `last`
      have hsides := congrArg (List.takeWhile (· != last)) (dropStart?_eq_some_iff.1 h)
      rw [← List.append_assoc, htake (by simp_all), List.append_assoc, List.singleton_append, htake hinit] at hsides
      have hlength := congrArg List.length hsides
      simp only [List.length_append, List.length_cons] at hlength
      omega
    rw [List.cons_append] at hdrop
    rw [List.cons_append, cutAt, hdrop]
    simp [ih fun h => hleft (List.mem_cons_of_mem _ h)]

/-- A character that occurs has a last occurrence. -/
theorem cutAtLast_ne_none {sep : Char} {cs : List Char} (hm : sep ∈ cs) :
    cutAtLast sep cs ≠ none := by
  induction cs with
  | nil => cases hm
  | cons c cs ih =>
    simp only [cutAtLast]
    split
    · simp
    · rename_i hn
      split
      · simp
      · rename_i hc
        rcases List.mem_cons.1 hm with rfl | hm
        · exact absurd rfl hc
        · exact absurd hn (ih hm)

/-- The two sides and the last separator are the whole list, and the right side holds no other. -/
theorem cutAtLast_eq_some {sep : Char} {cs left right : List Char}
    (h : cutAtLast sep cs = some (left, right)) : cs = left ++ sep :: right ∧ sep ∉ right := by
  induction cs generalizing left with
  | nil => simp [cutAtLast] at h
  | cons c cs ih =>
    simp only [cutAtLast] at h
    split at h
    · rename_i l r hl
      cases h
      obtain ⟨rfl, hr⟩ := ih hl
      exact ⟨rfl, hr⟩
    · rename_i hn
      split at h
      · rename_i hc
        cases h
        refine ⟨by rw [hc, List.nil_append], fun hm => ?_⟩
        exact absurd hn (cutAtLast_ne_none hm)
      · cases h

end AtomicCss.Text
