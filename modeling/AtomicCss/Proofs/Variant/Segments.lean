import AtomicCss.Variant.Token
import Mathlib.Data.List.Basic

/-!
# Where a token is cut

A colon separates two segments of a token if as many brackets are closed as opened in front of it, square
and round ones counted together. Nothing else is asked of the brackets: they need not match, and a token
may close more than it opens.

## The architecture

* **`Text.IsLevel`**, **`Token.CutsAt`** — the rule, said of a text and a place in it, by counting.
* **`Token.CutsFrom`** — the same for the rest of a text, when the text in front has some depth. The walk of
  `Token.segments` is taken apart with it: `length_segments` counts the cuts of a walk, and `segments_append`
  says that a walk runs through a segment without cuts.
* **`Token.Fits`** — segments that a walk from some depth can come to. `fits_segments` says that it comes to
  such segments only, `segments_intercalate` that it comes to all of them.
* **`Token.parse_cuts_outside_brackets`** — cutting and joining are inverse to each other, and the exact
  condition on the segments.
-/

namespace AtomicCss

/-! ## Levels -/

namespace Text

/-- As many brackets are opened as closed, both kinds counted together. -/
def IsLevel (cs : List Char) : Prop :=
  cs.count '[' + cs.count '(' = cs.count ']' + cs.count ')'

instance (cs : List Char) : Decidable (IsLevel cs) :=
  inferInstanceAs (Decidable (_ = _))

/-- The depth is what is opened less what is closed. -/
theorem depth_eq (cs : List Char) :
    depth cs = ((cs.count '[' + cs.count '(' : Nat) : Int) - ((cs.count ']' + cs.count ')' : Nat) : Int) := by
  induction cs with
  | nil => rfl
  | cons c cs ih =>
    rw [depth, ih]
    by_cases hsquare : c = '['
    · subst hsquare
      simp [weight]
      omega
    · by_cases hround : c = '('
      · subst hround
        simp [weight]
        omega
      · by_cases hsquare' : c = ']'
        · subst hsquare'
          simp [weight]
          omega
        · by_cases hround' : c = ')'
          · subst hround'
            simp [weight]
            omega
          -- no other character counts on either side
          · simp [weight, hsquare, hround, hsquare', hround']

theorem depth_eq_zero_iff {cs : List Char} : depth cs = 0 ↔ IsLevel cs := by
  rw [depth_eq, IsLevel]
  omega

end Text

namespace Token

/-! ## Cuts -/

/-- A colon stands at a place of a text, and in front of it the text is level. -/
def CutsAt (cs : List Char) (i : Nat) : Prop :=
  cs[i]? = some ':' ∧ Text.IsLevel (cs.take i)

instance (cs : List Char) (i : Nat) : Decidable (CutsAt cs i) :=
  inferInstanceAs (Decidable (_ ∧ _))

/-- A colon stands at a place of a text, at depth zero when the text behind which it stands has depth `d`. -/
def CutsFrom (d : Int) (cs : List Char) (i : Nat) : Prop :=
  cs[i]? = some ':' ∧ d + Text.depth (cs.take i) = 0

instance (d : Int) (cs : List Char) (i : Nat) : Decidable (CutsFrom d cs i) :=
  inferInstanceAs (Decidable (_ ∧ _))

theorem cutsFrom_zero_iff {cs : List Char} {i : Nat} : CutsFrom 0 cs i ↔ CutsAt cs i := by
  rw [CutsFrom, CutsAt, Int.zero_add, Text.depth_eq_zero_iff]

theorem cutsFrom_cons_zero {d : Int} {c : Char} {cs : List Char} :
    CutsFrom d (c :: cs) 0 ↔ c = ':' ∧ d = 0 := by
  simp [CutsFrom, Text.depth]

/-- Behind a character the depth has changed by its weight. -/
theorem cutsFrom_cons_succ {d : Int} {c : Char} {cs : List Char} {i : Nat} :
    CutsFrom d (c :: cs) (i + 1) ↔ CutsFrom (d + Text.weight c) cs i := by
  simp [CutsFrom, Text.depth, Int.add_assoc]

/-- **A walk has as many segments behind the first as there are cuts.** -/
theorem length_segments (d : Int) (cs : List Char) :
    (segments d cs).2.length = (List.range cs.length).countP fun i => CutsFrom d cs i := by
  induction cs generalizing d with
  | nil => rfl
  | cons c cs ih =>
    -- the first place by itself, and the places of the rest moved by one
    have hrest : (List.range (c :: cs).length).countP (fun i => CutsFrom d (c :: cs) i) =
        (segments (d + Text.weight c) cs).2.length + if c = ':' ∧ d = 0 then 1 else 0 := by
      rw [List.length_cons, List.range_succ_eq_map, List.countP_cons, List.countP_map, ih]
      simp only [Function.comp_def, Nat.succ_eq_add_one, cutsFrom_cons_zero, cutsFrom_cons_succ,
        decide_eq_true_eq]
    rw [hrest]
    simp only [segments]
    split
    · rename_i h
      have hweight : Text.weight c = 0 := by
        rw [h.1]
        decide
      rw [hweight, Int.add_zero, List.length_cons]
    · rfl

/-! ## Segments without cuts -/

/-- No place of a text is a cut. -/
def IsWhole (d : Int) (cs : List Char) : Prop :=
  ∀ i, ¬ CutsFrom d cs i

theorem isWhole_nil (d : Int) : IsWhole d [] := by
  intro i h
  simp [CutsFrom] at h

theorem isWhole_cons {d : Int} {c : Char} {cs : List Char} :
    IsWhole d (c :: cs) ↔ ¬ (c = ':' ∧ d = 0) ∧ IsWhole (d + Text.weight c) cs := by
  constructor
  · intro h
    refine ⟨fun hc => h 0 (cutsFrom_cons_zero.2 hc), fun i hi => ?_⟩
    exact h (i + 1) (cutsFrom_cons_succ.2 hi)
  · rintro ⟨hfirst, hrest⟩ i hi
    cases i with
    | zero => exact hfirst (cutsFrom_cons_zero.1 hi)
    | succ i => exact hrest i (cutsFrom_cons_succ.1 hi)

/-- **A walk runs through a text without cuts** and goes on behind it with the depth of both. -/
theorem segments_append {d : Int} {s : List Char} (t : List Char) (h : IsWhole d s) :
    segments d (s ++ t) =
      (s ++ (segments (d + Text.depth s) t).1, (segments (d + Text.depth s) t).2) := by
  induction s generalizing d with
  | nil => simp [Text.depth]
  | cons c s ih =>
    obtain ⟨hfirst, hrest⟩ := isWhole_cons.1 h
    rw [List.cons_append, segments, if_neg hfirst, ih hrest, Text.depth, ← Int.add_assoc]
    rfl

/-- At depth zero a colon begins a new segment. -/
theorem segments_colon (cs : List Char) :
    segments 0 (':' :: cs) = ([], (segments 0 cs).1 :: (segments 0 cs).2) := by
  rw [segments, if_pos ⟨rfl, rfl⟩]

/-! ## The segments of a walk -/

/-- What a walk that begins at depth `d` can come to: segments without cuts, all but the last of which lead
back to depth zero. -/
def Fits (d : Int) (first : List Char) : List (List Char) → Prop
  | [] => IsWhole d first
  | second :: others => IsWhole d first ∧ d + Text.depth first = 0 ∧ Fits 0 second others

/-- A character that is no cut joins the first segment. -/
theorem Fits.cons {d : Int} {c : Char} {first : List Char} {others : List (List Char)}
    (hc : ¬ (c = ':' ∧ d = 0)) (h : Fits (d + Text.weight c) first others) :
    Fits d (c :: first) others := by
  cases others with
  | nil => exact isWhole_cons.2 ⟨hc, h⟩
  | cons second others =>
    obtain ⟨hfirst, hdepth, hrest⟩ := h
    refine ⟨isWhole_cons.2 ⟨hc, hfirst⟩, ?_, hrest⟩
    rw [Text.depth]
    omega

/-- A walk comes to segments that fit. Induction on the text, for any depth in front. -/
theorem fits_segments (d : Int) (cs : List Char) : Fits d (segments d cs).1 (segments d cs).2 := by
  induction cs generalizing d with
  | nil => exact isWhole_nil d
  | cons c cs ih =>
    simp only [segments]
    split
    · rename_i h
      have hdepth : d + Text.depth [] = 0 := by
        rw [h.2]
        rfl
      refine ⟨isWhole_nil d, hdepth, ?_⟩
      rw [h.2]
      exact ih 0
    · rename_i h
      exact Fits.cons h (ih (d + Text.weight c))

/-- **Joining segments that fit and walking gives them back.** Induction on the segments behind the first. -/
theorem segments_intercalate {d : Int} {first : List Char} {others : List (List Char)}
    (h : Fits d first others) : segments d ([':'].intercalate (first :: others)) = (first, others) := by
  induction others generalizing d first with
  | nil =>
    rw [List.intercalate_singleton, ← List.append_nil first, segments_append [] h]
    simp [segments]
  | cons second others ih =>
    obtain ⟨hfirst, hdepth, hrest⟩ := h
    have hwalk := ih hrest
    rw [List.intercalate_cons_cons, List.append_assoc, segments_append _ hfirst, hdepth,
      List.singleton_append, segments_colon, hwalk]
    simp

theorem isWhole_zero_iff {cs : List Char} : IsWhole 0 cs ↔ ∀ i, ¬ CutsAt cs i := by
  simp only [IsWhole, cutsFrom_zero_iff]

/-- Segments fit if none has a cut of its own and all but the last are level. -/
theorem fits_zero_iff {first : List Char} {others : List (List Char)} :
    Fits 0 first others ↔
      (∀ s ∈ first :: others, ∀ i, ¬ CutsAt s i) ∧ ∀ s ∈ (first :: others).dropLast, Text.IsLevel s := by
  induction others generalizing first with
  | nil => simp [Fits, isWhole_zero_iff]
  | cons second others ih =>
    simp only [Fits, isWhole_zero_iff, Int.zero_add, Text.depth_eq_zero_iff, ih, List.forall_mem_cons,
      List.dropLast_cons_cons]
    exact ⟨fun ⟨h, hl, hs, hls⟩ => ⟨⟨h, hs⟩, hl, hls⟩, fun ⟨⟨h, hs⟩, hl, hls⟩ => ⟨h, hl, hs, hls⟩⟩

/-! ## Tokens -/

/-- The segments of a token: its variants and its base. -/
def parts (token : Token) : List String :=
  token.variants ++ [token.base]

theorem parts_parse (token : String) :
    (parse token).parts =
      ((segments 0 token.toList).1 :: (segments 0 token.toList).2).map String.ofList :=
  variants_ofSegments _ _

/-- Joining the parts of a token gives it back. -/
theorem intercalate_parts_parse (token : String) : ":".intercalate (parse token).parts = token := by
  have hjoin : [':'].intercalate ((segments 0 token.toList).1 :: (segments 0 token.toList).2) =
      token.toList := intercalate_segments 0 token.toList
  rw [parts_parse, ← String.toList_inj, String.toList_intercalate, List.map_map]
  simpa [Function.comp_def] using hjoin

theorem length_variants_parse (token : String) :
    (parse token).variants.length =
      (List.range token.toList.length).countP fun i => CutsAt token.toList i := by
  have hlength : (parse token).parts.length = (segments 0 token.toList).2.length + 1 := by
    rw [parts_parse, List.length_map, List.length_cons]
  have hcuts := length_segments 0 token.toList
  simp only [cutsFrom_zero_iff] at hcuts
  rw [parts, List.length_append, List.length_singleton] at hlength
  rw [← hcuts]
  omega

/-- The parts of joined segments are the segments exactly if the walk gives the segments back. -/
theorem parts_parse_intercalate_iff {first : String} {others : List String} :
    (parse (":".intercalate (first :: others))).parts = first :: others ↔
      Fits 0 first.toList (others.map String.toList) := by
  have hchars : (":".intercalate (first :: others)).toList =
      [':'].intercalate (first.toList :: others.map String.toList) := by
    rw [String.toList_intercalate]
    rfl
  have hback : (first.toList :: others.map String.toList).map String.ofList = first :: others := by
    simp [Function.comp_def]
  rw [parts_parse, hchars]
  constructor
  · intro h
    have hfits := fits_segments 0 ([':'].intercalate (first.toList :: others.map String.toList))
    have hsegments := congrArg (List.map String.toList) h
    simp only [List.map_map, Function.comp_def, String.toList_ofList, List.map_id', List.map_cons,
      List.cons.injEq] at hsegments
    rwa [hsegments.1, hsegments.2] at hfits
  · intro h
    rw [segments_intercalate h, hback]

/-- Texts are what their joined text is cut into if there are some, none of them has a cut of its own, and all but the
last are level. -/
theorem parts_parse_eq_iff (texts : List String) :
    (parse (":".intercalate texts)).parts = texts ↔
      texts ≠ [] ∧ (∀ text ∈ texts, ∀ i, ¬ CutsAt text.toList i) ∧
        ∀ text ∈ texts.dropLast, Text.IsLevel text.toList := by
  cases texts with
  -- the parts of a token are never empty
  | nil => simp [parts]
  | cons first others =>
    rw [parts_parse_intercalate_iff, fits_zero_iff, ← List.map_cons, ← List.map_dropLast]
    simp only [List.forall_mem_map, ne_eq, reduceCtorEq, not_false_eq_true, true_and]

/-- **A token is cut at the colons outside brackets, and nowhere else.**

* Joining the variants and the base of a token with colons gives the token back, and there are as many
  variants as colons in front of which as many brackets are closed as opened.
* A list of texts is what its joined text is cut into exactly if it is not empty, no text in it has such a
  colon of its own, and each but the last closes as many brackets as it opens. -/
theorem parse_cuts_outside_brackets :
    (∀ token : String,
      ":".intercalate (parse token).parts = token ∧
        (parse token).variants.length =
          (List.range token.toList.length).countP fun i => CutsAt token.toList i) ∧
    ∀ texts : List String,
      (parse (":".intercalate texts)).parts = texts ↔
        texts ≠ [] ∧ (∀ text ∈ texts, ∀ i, ¬ CutsAt text.toList i) ∧
          ∀ text ∈ texts.dropLast, Text.IsLevel text.toList := by
  exact ⟨fun token => ⟨intercalate_parts_parse token, length_variants_parse token⟩, parts_parse_eq_iff⟩

/-- A colon in brackets cuts nothing, and brackets of both kinds level each other out. -/
example : parse "[&:hover):(a:b:c" = ⟨["[&:hover)"], "(a:b:c"⟩ := by decide

end Token

end AtomicCss
