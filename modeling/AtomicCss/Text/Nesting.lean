/-!
# Bracket depth

A class token may hold arbitrary CSS between square brackets or parentheses, so separators count only
outside of them. `weight` is what one character adds to the depth and `depth` the sum over a text; the
depth of a text with more closers than openers is negative.

* `isBalanced` — square and round brackets, counted apart, never close more than was opened and end
  closed;
* `cutLastOutside?` — the two sides of the last separator at depth zero.
-/

namespace AtomicCss.Text

/-- What a character adds to the bracket depth. -/
def weight (c : Char) : Int :=
  if c = '[' ∨ c = '(' then 1 else if c = ']' ∨ c = ')' then -1 else 0

/-- The bracket depth behind a text: openers less closers, both kinds counted together. -/
def depth : List Char → Int
  | [] => 0
  | c :: cs => weight c + depth cs

/-- The depth behind two texts is the sum of theirs. -/
theorem depth_append (s t : List Char) : depth (s ++ t) = depth s + depth t := by
  induction s with
  | nil => simp [depth]
  | cons c cs ih => simp only [List.cons_append, depth, ih, Int.add_assoc]

/-- Whether closers of one kind of bracket never outnumber its openers and all are closed at the end,
when `n` are open in front. -/
def closes (opener closer : Char) (n : Nat) : List Char → Bool
  | [] => n == 0
  | c :: cs =>
    if c = opener then closes opener closer (n + 1) cs
    else if c = closer then
      match n with
      | 0 => false
      | n + 1 => closes opener closer n cs
    else closes opener closer n cs

/-- Whether square brackets and parentheses are each balanced; the two kinds may overlap. -/
def isBalanced (s : String) : Bool :=
  closes '[' ']' 0 s.toList && closes '(' ')' 0 s.toList

/-- The two sides of the last `sep` that stands at bracket depth zero, when the text in front of `cs`
has depth `d`. -/
def cutLastOutside (sep : Char) (d : Int) : List Char → Option (List Char × List Char)
  | [] => none
  | c :: cs =>
    match cutLastOutside sep (d + weight c) cs with
    | some (left, right) => some (c :: left, right)
    | none => if c = sep ∧ d = 0 then some ([], cs) else none

/-- The two sides, both non-empty, of the last `sep` outside brackets and parentheses. -/
def cutLastOutside? (sep : Char) (s : String) : Option (String × String) :=
  match cutLastOutside sep 0 s.toList with
  | some (l :: left, r :: right) => some (String.ofList (l :: left), String.ofList (r :: right))
  | _ => none

/-- The two sides and the separator are the whole list, and the left side closes what it opens. -/
theorem cutLastOutside_eq_some {sep : Char} {d : Int} {cs left right : List Char}
    (h : cutLastOutside sep d cs = some (left, right)) :
    cs = left ++ sep :: right ∧ d + depth left = 0 := by
  induction cs generalizing d left with
  | nil => simp [cutLastOutside] at h
  | cons c cs ih =>
    simp only [cutLastOutside] at h
    split at h
    · rename_i l r hl
      cases h
      obtain ⟨rfl, hd⟩ := ih hl
      refine ⟨rfl, ?_⟩
      simp only [depth]
      omega
    · split at h
      · rename_i hc
        cases h
        exact ⟨by rw [hc.1, List.nil_append], by simp [depth, hc.2]⟩
      · cases h

end AtomicCss.Text
