import AtomicCss.Text.Nesting
import Mathlib.Data.List.Basic

/-!
# Balanced and nested brackets

Whether brackets are closed is told by a walk through a text that knows which of them are open. The walk of
`Text.closes` knows one kind of bracket and counts; the walk of `dueBehind` knows both kinds and remembers the order
in which they were opened, so a closer has to match the bracket that was opened last. Balanced texts are those that the
second walk accepts when it is shown one kind at a time.

What is said here about texts put together rests on one fact: a walk that succeeds does not touch what was due in front
of it.

## The architecture

* **`closes_append`**, **`closes_append_closer`** — a text without the brackets in question is walked through without a
  trace, and behind a balanced text a closer is one too many.
* **`dueStep_cases`**, **`dueBehind_append_base`** — one character and a whole text, with more closers due in front.
* **`isBalanced_iff`** — balanced is nested, one kind at a time; **`Nested.isBalanced`** — nested is balanced.
* **`dueBehind_intercalate`** — a nested text may be put between the pieces of another.
* **`dueBehind_of_isBalanced`** — a balanced text that is not nested stops every walk, so putting it between other
  pieces does not make it nested (`nested_intercalate_iff`).
* **`cutLastOutside?_append`** — a text is cut at a separator at depth zero, if it is the last one.
-/

namespace AtomicCss.Text

section Closes

variable {opener closer : Char}

/-- Characters that are no brackets do not count. -/
theorem closes_append {cs : List Char} (h : ∀ c ∈ cs, c ≠ opener ∧ c ≠ closer) (n : Nat)
    (ds : List Char) : closes opener closer n (cs ++ ds) = closes opener closer n ds := by
  induction cs with
  | nil => rfl
  | cons c cs ih =>
    obtain ⟨hopen, hclose⟩ := h c (List.mem_cons_self ..)
    rw [List.cons_append, closes.eq_def]
    simp only [hopen, hclose, if_false]
    exact ih fun d hd => h d (List.mem_cons_of_mem _ hd)

/-- **Behind a balanced text a closer is one too many**, whatever follows it. Induction on the text, for any
number of brackets that are open in front: all of them are closed at its end. -/
theorem closes_append_closer (hne : closer ≠ opener) {cs : List Char} {n : Nat}
    (h : closes opener closer n cs = true) (ds : List Char) :
    closes opener closer n (cs ++ closer :: ds) = false := by
  induction cs generalizing n with
  | nil =>
    obtain rfl : n = 0 := by simpa [closes] using h
    simp [closes, hne]
  | cons c cs ih =>
    rw [List.cons_append]
    simp only [closes] at h ⊢
    split
    · rename_i hopen
      rw [if_pos hopen] at h
      exact ih h
    · rename_i hopen
      rw [if_neg hopen] at h
      split
      · rename_i hclose
        rw [if_pos hclose] at h
        cases n with
        | zero => rfl
        | succ n => exact ih h
      · rename_i hclose
        rw [if_neg hclose] at h
        exact ih h

/-- Two balanced texts with a closer behind each end at the same place. -/
theorem eq_of_closes (hne : closer ≠ opener) {cs cs' ds ds' : List Char} (h : closes opener closer 0 cs = true)
    (h' : closes opener closer 0 cs' = true) (heq : cs ++ closer :: ds = cs' ++ closer :: ds') :
    cs = cs' ∧ ds = ds' := by
  -- what the longer one has more begins with a closer
  have hmore {short long more rest rest' : List Char} (hshort : closes opener closer 0 short = true)
      (hlong : closes opener closer 0 long = true) (happend : long = short ++ more)
      (hrest : closer :: rest = more ++ closer :: rest') : more = [] := by
    cases more with
    | nil => rfl
    | cons c more =>
      obtain ⟨rfl, -⟩ := List.cons.inj hrest
      rw [happend, closes_append_closer hne hshort] at hlong
      cases hlong
  rcases List.append_eq_append_iff.1 heq with ⟨more, happend, hrest⟩ | ⟨more, happend, hrest⟩
  · obtain rfl := hmore h h' happend hrest
    exact ⟨by simpa using happend.symm, (List.cons.inj hrest).2⟩
  · obtain rfl := hmore h' h happend hrest
    exact ⟨by simpa using happend, ((List.cons.inj hrest).2).symm⟩

end Closes

/-! ## A walk that remembers what is open -/

def isSquare (c : Char) : Bool :=
  c == '[' || c == ']'

def isRound (c : Char) : Bool :=
  c == '(' || c == ')'

def isBracket (c : Char) : Bool :=
  isSquare c || isRound c

/-- The closers that are due behind a character, the next one first, when those of `due` are due in front of it;
`none` if the character is a closer and not the next one. -/
def dueStep (due : List Char) (c : Char) : Option (List Char) :=
  if c = '[' then some (']' :: due)
  else if c = '(' then some (')' :: due)
  else if c = ']' ∨ c = ')' then
    match due with
    | [] => none
    | d :: due => if c = d then some due else none
  else some due

/-- The closers that are due behind a text. -/
def dueBehind (due cs : List Char) : Option (List Char) :=
  cs.foldlM dueStep due

/-- Whether the brackets of a text match each other when only some characters are looked at. -/
def NestedIn (p : Char → Bool) (cs : List Char) : Prop :=
  dueBehind [] (cs.filter p) = some []

/-- Every closer of a text matches the bracket that was opened last, and none stays open. -/
def Nested (s : String) : Prop :=
  NestedIn isBracket s.toList

instance (p : Char → Bool) (cs : List Char) : Decidable (NestedIn p cs) :=
  inferInstanceAs (Decidable (_ = _))

instance (s : String) : Decidable (Nested s) :=
  inferInstanceAs (Decidable (NestedIn _ _))

/-! ## One character -/

section Step

variable {due out cs : List Char} {c : Char}

theorem isBracket_cases (c : Char) : c = '[' ∨ c = '(' ∨ (c = ']' ∨ c = ')') ∨ isBracket c = false := by
  unfold isBracket isSquare isRound
  by_cases h1 : c = '[' <;> by_cases h2 : c = ']' <;> by_cases h3 : c = '(' <;> by_cases h4 : c = ')' <;>
    simp [h1, h2, h3, h4]

/-- What passes a test that no bracket passes is no bracket. -/
theorem isBracket_of_test {test : Char → Bool} (htest : ['[', '(', ']', ')'].any test = false)
    (h : test c = true) : isBracket c = false := by
  simp only [List.any_cons, List.any_nil, Bool.or_eq_false_iff] at htest
  rcases isBracket_cases c with rfl | rfl | (rfl | rfl) | hother
  · exact absurd h (by simp [htest])
  · exact absurd h (by simp [htest])
  · exact absurd h (by simp [htest])
  · exact absurd h (by simp [htest])
  · exact hother

@[simp] theorem dueStep_square (due : List Char) : dueStep due '[' = some (']' :: due) := rfl

@[simp] theorem dueStep_round (due : List Char) : dueStep due '(' = some (')' :: due) := rfl

theorem dueStep_of_not_isBracket (h : isBracket c = false) (due : List Char) : dueStep due c = some due := by
  simp only [isBracket, isSquare, isRound, Bool.or_eq_false_iff, beq_eq_false_iff_ne, ne_eq] at h
  simp [dueStep, h]

@[simp] theorem dueStep_nil_closer (h : c = ']' ∨ c = ')') : dueStep [] c = none := by
  rcases h with rfl | rfl <;> rfl

theorem dueStep_cons_closer (h : c = ']' ∨ c = ')') (d : Char) (due : List Char) :
    dueStep (d :: due) c = if c = d then some due else none := by
  rcases h with rfl | rfl <;> rfl

/-- What one character can do to the closers that are due. -/
theorem dueStep_cases (h : dueStep due c = some out) :
    (c = '[' ∧ out = ']' :: due) ∨ (c = '(' ∧ out = ')' :: due) ∨ ((c = ']' ∨ c = ')') ∧ due = c :: out) ∨
      (isBracket c = false ∧ out = due) := by
  rcases isBracket_cases c with rfl | rfl | hcloser | hother
  · exact .inl ⟨rfl, (Option.some.inj h).symm⟩
  · exact .inr (.inl ⟨rfl, (Option.some.inj h).symm⟩)
  · refine .inr (.inr (.inl ⟨hcloser, ?_⟩))
    cases due with
    | nil =>
      rw [dueStep_nil_closer hcloser] at h
      cases h
    | cons d due =>
      rw [dueStep_cons_closer hcloser] at h
      split at h
      · rename_i hd
        cases h
        rw [hd]
      · cases h
  · rw [dueStep_of_not_isBracket hother] at h
    exact .inr (.inr (.inr ⟨hother, (Option.some.inj h).symm⟩))

/-- A step that succeeds does not touch what was due in front of it. -/
theorem dueStep_append_base (h : dueStep due c = some out) (base : List Char) :
    dueStep (due ++ base) c = some (out ++ base) := by
  rcases dueStep_cases h with ⟨rfl, rfl⟩ | ⟨rfl, rfl⟩ | ⟨hcloser, rfl⟩ | ⟨hother, rfl⟩
  · rfl
  · rfl
  · rw [List.cons_append, dueStep_cons_closer hcloser, if_pos rfl]
  · exact dueStep_of_not_isBracket hother _

end Step

/-! ## Whole texts -/

section Walk

variable {p : Char → Bool} {due out cs : List Char}

theorem dueBehind_cons (due : List Char) (c : Char) (cs : List Char) :
    dueBehind due (c :: cs) = (dueStep due c).bind (dueBehind · cs) :=
  rfl

/-- The walk through two texts is the walk through the second from where the first has ended. -/
theorem dueBehind_append (due cs ds : List Char) :
    dueBehind due (cs ++ ds) = (dueBehind due cs).bind (dueBehind · ds) :=
  List.foldlM_append

/-- **A walk that succeeds does not touch what was due in front of it.** -/
theorem dueBehind_append_base (h : dueBehind due cs = some out) (base : List Char) :
    dueBehind (due ++ base) cs = some (out ++ base) := by
  induction cs generalizing due with
  | nil =>
    cases h
    rfl
  | cons c cs ih =>
    obtain ⟨next, hstep, hrest⟩ := Option.bind_eq_some_iff.1 h
    rw [dueBehind_cons, dueStep_append_base hstep, Option.bind_some]
    exact ih hrest

/-- What is nested leaves due what was due. -/
theorem NestedIn.leaves_due (h : NestedIn p cs) (base : List Char) :
    dueBehind base (cs.filter p) = some base :=
  dueBehind_append_base h base

/-! ## Both kinds and one kind -/

/-- A predicate that looks at both brackets of a kind or at neither. -/
def KeepsPairs (p : Char → Bool) : Prop :=
  p '[' = p ']' ∧ p '(' = p ')'

theorem dueStep_filter (hp : KeepsPairs p) {c : Char} (h : dueStep due c = some out) :
    dueBehind (due.filter p) ([c].filter p) = some (out.filter p) := by
  rcases dueStep_cases h with ⟨rfl, rfl⟩ | ⟨rfl, rfl⟩ | ⟨hcloser, rfl⟩ | ⟨hother, rfl⟩
  · cases hc : p ']' <;> simp [hp.1, hc, dueBehind]
  · cases hc : p ')' <;> simp [hp.2, hc, dueBehind]
  · cases hc : p c <;> simp [hc, dueBehind, dueStep_cons_closer hcloser]
  · cases hc : p c <;> simp [hc, dueBehind, dueStep_of_not_isBracket hother]

/-- Nested brackets are nested when only one kind is looked at. -/
theorem dueBehind_filter (hp : KeepsPairs p) (h : dueBehind due cs = some out) :
    dueBehind (due.filter p) (cs.filter p) = some (out.filter p) := by
  induction cs generalizing due with
  | nil =>
    cases h
    rfl
  | cons c cs ih =>
    obtain ⟨next, hstep, hrest⟩ := Option.bind_eq_some_iff.1 h
    rw [← List.singleton_append, List.filter_append, dueBehind_append, dueStep_filter hp hstep, Option.bind_some]
    exact ih hrest

theorem keepsPairs_isSquare : KeepsPairs isSquare :=
  ⟨rfl, rfl⟩

theorem keepsPairs_isRound : KeepsPairs isRound :=
  ⟨rfl, rfl⟩

/-- Counting the brackets of one kind comes to the walk that looks at this kind only. -/
theorem closes_eq_true_iff {opener closer : Char} (hkind : opener = '[' ∧ closer = ']' ∨ opener = '(' ∧ closer = ')')
    (n : Nat) (cs : List Char) :
    closes opener closer n cs = true ↔
      dueBehind (List.replicate n closer) (cs.filter fun c => c == opener || c == closer) = some [] := by
  have hne : closer ≠ opener := by rcases hkind with ⟨rfl, rfl⟩ | ⟨rfl, rfl⟩ <;> decide
  have hcloser : closer = ']' ∨ closer = ')' := hkind.imp And.right And.right
  have hopener (due : List Char) : dueStep due opener = some (closer :: due) := by
    rcases hkind with ⟨rfl, rfl⟩ | ⟨rfl, rfl⟩ <;> rfl
  induction cs generalizing n with
  | nil => cases n <;> simp [closes, dueBehind]
  | cons c cs ih =>
    simp only [closes]
    by_cases ho : c = opener
    · rw [if_pos ho, List.filter_cons_of_pos (by simp [ho]), dueBehind_cons, ho, hopener]
      exact ih (n + 1)
    · rw [if_neg ho]
      by_cases hc : c = closer
      · rw [if_pos hc, List.filter_cons_of_pos (by simp [hc]), dueBehind_cons, hc]
        cases n with
        | zero => simp [dueStep_nil_closer hcloser]
        | succ n => simp [List.replicate_succ, dueStep_cons_closer hcloser, ih]
      · rw [if_neg hc, List.filter_cons_of_neg (by simp [ho, hc])]
        exact ih n

/-- **Balanced is nested, one kind at a time.** -/
theorem isBalanced_iff {s : String} :
    isBalanced s = true ↔ NestedIn isSquare s.toList ∧ NestedIn isRound s.toList := by
  rw [isBalanced, Bool.and_eq_true, closes_eq_true_iff (.inl ⟨rfl, rfl⟩), closes_eq_true_iff (.inr ⟨rfl, rfl⟩)]
  exact Iff.rfl

theorem filter_isBracket (cs : List Char) :
    (cs.filter isBracket).filter isSquare = cs.filter isSquare ∧
      (cs.filter isBracket).filter isRound = cs.filter isRound := by
  rw [List.filter_filter, List.filter_filter]
  constructor <;> refine List.filter_congr fun c _ => ?_
  · cases h : isSquare c <;> simp [isBracket, h]
  · cases h : isRound c <;> simp [isBracket, h]

/-- Whether a text is balanced and nested is up to its brackets. -/
theorem isBalanced_congr {s t : String} (h : s.toList.filter isBracket = t.toList.filter isBracket) :
    isBalanced s = isBalanced t := by
  rw [Bool.eq_iff_iff, isBalanced_iff, isBalanced_iff]
  unfold NestedIn
  rw [← (filter_isBracket s.toList).1, ← (filter_isBracket s.toList).2, h, (filter_isBracket t.toList).1,
    (filter_isBracket t.toList).2]

theorem nested_congr {s t : String} (h : s.toList.filter isBracket = t.toList.filter isBracket) :
    Nested s ↔ Nested t := by
  rw [Nested, NestedIn, h]
  exact Iff.rfl

theorem Nested.isBalanced {s : String} (h : Nested s) : isBalanced s = true := by
  have hsquare := dueBehind_filter keepsPairs_isSquare h
  have hround := dueBehind_filter keepsPairs_isRound h
  rw [(filter_isBracket s.toList).1] at hsquare
  rw [(filter_isBracket s.toList).2] at hround
  exact isBalanced_iff.2 ⟨hsquare, hround⟩

/-! ## Texts put together -/

/-- **A nested text may be put between the pieces of another**: it changes nothing there. -/
theorem dueBehind_intercalate {value : String} (h : NestedIn p value.toList) (pieces : List String) (due : List Char) :
    dueBehind due ((value.intercalate pieces).toList.filter p) =
      dueBehind due ((String.join pieces).toList.filter p) := by
  induction pieces generalizing due with
  | nil => simp
  | cons piece pieces ih =>
    cases pieces with
    | nil => simp
    | cons piece' pieces =>
      rw [String.intercalate_cons_cons, String.join_cons]
      simp only [String.toList_append, List.filter_append, dueBehind_append, h.leaves_due, Option.bind_assoc,
        Option.bind_some, ih]

/-- **A balanced text that is not nested stops every walk.** What it opens itself it also closes, so the closer that
does not match is none of those that were due in front of it. -/
theorem dueBehind_of_balanced (due : List Char) {base : List Char}
    (hsquare : dueBehind (due.filter isSquare) (cs.filter isSquare) = some [])
    (hround : dueBehind (due.filter isRound) (cs.filter isRound) = some [])
    (hdue : ∀ d ∈ due, d = ']' ∨ d = ')') :
    dueBehind (due ++ base) cs = (dueBehind due cs).map fun _ => base := by
  induction cs generalizing due with
  | nil =>
    have hnil : due = [] := by
      rw [List.eq_nil_iff_forall_not_mem]
      intro d hd
      rcases hdue d hd with rfl | rfl
      · exact List.filter_eq_nil_iff.1 (Option.some.inj hsquare) _ hd rfl
      · exact List.filter_eq_nil_iff.1 (Option.some.inj hround) _ hd rfl
    rw [hnil]
    rfl
  | cons c cs ih =>
    rw [dueBehind_cons, dueBehind_cons]
    rcases isBracket_cases c with rfl | rfl | hcloser | hother
    · exact ih (']' :: due) hsquare hround (by simpa using hdue)
    · exact ih (')' :: due) hsquare hround (by simpa using hdue)
    · cases due with
      | nil =>
        rcases hcloser with rfl | rfl
        · cases hsquare
        · cases hround
      | cons d due =>
        rw [List.cons_append, dueStep_cons_closer hcloser, dueStep_cons_closer hcloser]
        split
        · rename_i hd
          subst hd
          have hrest := (List.forall_mem_cons.1 hdue).2
          rcases hcloser with rfl | rfl <;> exact ih due hsquare hround hrest
        · rfl
    · rw [dueStep_of_not_isBracket hother, dueStep_of_not_isBracket hother]
      rw [isBracket, Bool.or_eq_false_iff] at hother
      rw [List.filter_cons_of_neg (by simp [hother.1])] at hsquare
      rw [List.filter_cons_of_neg (by simp [hother.2])] at hround
      exact ih due hsquare hround hdue

/-- **A balanced text is walked through without a trace, or it stops the walk**, whatever is due in front of it. -/
theorem dueBehind_of_isBalanced {value : String} (h : isBalanced value = true) (due : List Char) :
    dueBehind due (value.toList.filter isBracket) = if Nested value then some due else none := by
  obtain ⟨hsquare, hround⟩ := isBalanced_iff.1 h
  have hframe (base : List Char) : dueBehind base (value.toList.filter isBracket) =
      (dueBehind [] (value.toList.filter isBracket)).map fun _ => base := by
    refine dueBehind_of_balanced [] ?_ ?_ (by simp)
    · rw [(filter_isBracket value.toList).1]
      exact hsquare
    · rw [(filter_isBracket value.toList).2]
      exact hround
  split
  · rename_i hnested
    exact hnested.leaves_due due
  · rename_i hnested
    cases hwalk : dueBehind [] (value.toList.filter isBracket) with
    | none => rw [hframe, hwalk, Option.map_none]
    | some out =>
      have hempty := hframe []
      rw [hwalk, Option.map_some] at hempty
      exact absurd (hwalk.trans hempty) hnested

theorem isBalanced_intercalate {value : String} (h : isBalanced value = true) {pieces : List String}
    (hpieces : isBalanced (String.join pieces) = true) : isBalanced (value.intercalate pieces) = true := by
  rw [isBalanced_iff] at h hpieces ⊢
  unfold NestedIn
  rw [dueBehind_intercalate h.1, dueBehind_intercalate h.2]
  exact hpieces

theorem Nested.intercalate {value : String} (h : Nested value) (pieces : List String)
    (hpieces : Nested (String.join pieces)) : Nested (value.intercalate pieces) := by
  rw [Nested, NestedIn, dueBehind_intercalate h]
  exact hpieces

/-- A balanced text between nested pieces is as nested as it is by itself. -/
theorem nested_intercalate_iff {value : String} (h : isBalanced value = true) {pieces : List String}
    (hpieces : Nested (String.join pieces)) (hlength : 2 ≤ pieces.length) :
    Nested (value.intercalate pieces) ↔ Nested value := by
  constructor
  · intro hfilled
    by_contra hvalue
    obtain ⟨front, next, pieces, rfl⟩ : ∃ front next rest, pieces = front :: next :: rest := by
      match pieces, hlength with
      | front :: next :: rest, _ => exact ⟨front, next, rest, rfl⟩
    rw [Nested, NestedIn, String.intercalate_cons_cons] at hfilled
    simp only [String.toList_append, List.filter_append, dueBehind_append, dueBehind_of_isBalanced h, if_neg hvalue,
      Option.bind_none, Option.bind_fun_none] at hfilled
    cases hfilled
  · intro hvalue
    exact hvalue.intercalate pieces hpieces

theorem Nested.append {s t : String} (hs : Nested s) (ht : Nested t) : Nested (s ++ t) := by
  rw [Nested, NestedIn, String.toList_append, List.filter_append, dueBehind_append, hs.leaves_due, Option.bind_some]
  exact ht

/-- A text without brackets is nested. -/
theorem nested_of_forall {s : String} (h : ∀ c ∈ s.toList, isBracket c = false) : Nested s := by
  have hfilter : s.toList.filter isBracket = [] := List.filter_eq_nil_iff.2 fun c hc => by simp [h c hc]
  rw [Nested, NestedIn, hfilter]
  rfl

end Walk

/-! ## Separators outside of brackets -/

section Outside

variable {sep : Char}

theorem depth_of_forall {cs : List Char} (h : ∀ c ∈ cs, isBracket c = false) : depth cs = 0 := by
  induction cs with
  | nil => rfl
  | cons c cs ih =>
    have hc := h c List.mem_cons_self
    simp only [isBracket, isSquare, isRound, Bool.or_eq_false_iff, beq_eq_false_iff_ne, ne_eq] at hc
    have hweight : weight c = 0 := by simp [weight, hc]
    rw [depth, hweight, ih fun d hd => h d (List.mem_cons_of_mem _ hd), Int.add_zero]

theorem cutLastOutside_eq_none {cs : List Char} (h : sep ∉ cs) (d : Int) : cutLastOutside sep d cs = none := by
  rw [Option.eq_none_iff_forall_ne_some]
  rintro ⟨left, right⟩ hcut
  apply h
  rw [(cutLastOutside_eq_some hcut).1]
  exact List.mem_append_right _ List.mem_cons_self

/-- A list is cut at a separator that stands at depth zero and has no other behind it. -/
theorem cutLastOutside_append {left right : List Char} {d : Int} (hdepth : d + depth left = 0) (h : sep ∉ right) :
    cutLastOutside sep d (left ++ sep :: right) = some (left, right) := by
  induction left generalizing d with
  | nil =>
    have hzero : d = 0 := by simpa [depth] using hdepth
    rw [List.nil_append, cutLastOutside, cutLastOutside_eq_none h]
    exact if_pos ⟨rfl, hzero⟩
  | cons c left ih =>
    have hrest : d + weight c + depth left = 0 := by rw [← hdepth, depth, Int.add_assoc]
    rw [List.cons_append, cutLastOutside, ih hrest]

theorem cutLastOutside?_append {left right : String} (hdepth : depth left.toList = 0) (h : sep ∉ right.toList)
    (hleft : left ≠ "") (hright : right ≠ "") :
    cutLastOutside? sep (left ++ String.singleton sep ++ right) = some (left, right) := by
  have hchars : (left ++ String.singleton sep ++ right).toList = left.toList ++ sep :: right.toList := by simp
  have hcut : cutLastOutside sep 0 (left.toList ++ sep :: right.toList) = some (left.toList, right.toList) :=
    cutLastOutside_append (by rw [hdepth, Int.add_zero]) h
  obtain ⟨l, ls, hl⟩ := List.exists_cons_of_ne_nil (mt String.toList_eq_nil_iff.1 hleft)
  obtain ⟨r, rs, hr⟩ := List.exists_cons_of_ne_nil (mt String.toList_eq_nil_iff.1 hright)
  rw [cutLastOutside?, hchars, hcut, hl, hr]
  simp [← hl, ← hr]

end Outside

end AtomicCss.Text
