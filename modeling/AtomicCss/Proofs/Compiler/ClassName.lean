import AtomicCss.Proofs.Catalog.Names
import AtomicCss.Proofs.Compiler.Resolution
import AtomicCss.Proofs.Variant.Identifier
import AtomicCss.Proofs.Variant.Inversion
import AtomicCss.Proofs.Variant.Segments
import AtomicCss.Stylesheet

/-!
# The class names of a stylesheet

A rule begins with the class of its token, and a browser drops the rule if the class is no identifier. The
catalog and the variants leave it open what a token may hold: almost any character can stand between
brackets. What they do settle is how a token with a rule begins. No variant and no utility begins with a
dash and a digit, so the only thing that can go wrong is a character that is not escaped.

* **`Theme.standard_breakpoint?_of_dash`**, **`Compiler.utility?_of_opensNegative`** — variants and utilities.
* **`Compiler.not_opensNegative_of_resolve?`** — how a token with a rule begins.
* **`Compiler.class_names_break_at_grave_accents`** — when the class of a rule is an identifier.
-/

namespace AtomicCss

open Text (opensNegative)

/-- No breakpoint of the default theme begins with a dash. -/
theorem Theme.standard_breakpoint?_of_dash {name rest : String} (h : Text.after? "-" name = some rest) :
    Theme.standard.breakpoint? name = none := by
  have hown : ∀ entry ∈ Theme.standard.breakpoints.entries, Text.after? "-" entry.1 = none := by
    decide +kernel
  have hdefault : ∀ entry ∈ Scale.breakpoints, Text.after? "-" entry.1 = none := by
    decide +kernel
  have hget : Theme.standard.breakpoints.get? name = none := by
    rw [Option.eq_none_iff_forall_ne_some]
    intro width hwidth
    rw [hown (name, width) (OrderedMap.get?_eq_some_iff.1 hwidth)] at h
    cases h
  rw [breakpoint?, hget, Variant.lookup_eq_none_of_after? h hdefault]
  rfl

/-- The important marker stands in front of the sign or at the end, so it does not hide a negative number. -/
theorem opensNegative_stripImportant {base : String} (h : opensNegative base.toList = true) :
    opensNegative (stripImportant base).1.toList = true := by
  obtain ⟨c, rest, hchars, hdigit⟩ := Text.opensNegative_iff.1 h
  unfold stripImportant
  split
  · rename_i hmark
    rw [hchars] at hmark
    exact absurd (List.cons.inj hmark).1 (by decide)
  · rw [hchars]
    split
    · rename_i hlast
      rw [String.toList_ofList]
      cases rest with
      | nil =>
        obtain rfl : c = '!' := by simpa using hlast
        exact absurd hdigit (by decide)
      | cons d ds => exact hdigit
    · exact h

namespace Token

/-- A token that begins as a negative number has a base that does, or a first variant that does. -/
theorem opensNegative_parse {token : String} (h : opensNegative token.toList = true) :
    (parse token).variants = [] ∧ opensNegative (parse token).base.toList = true ∨
      ∃ variant variants, (parse token).variants = variant :: variants ∧
        opensNegative variant.toList = true := by
  have hjoin := intercalate_parts_parse token
  rw [parts] at hjoin
  cases hvariants : (parse token).variants with
  | nil =>
    rw [hvariants, List.nil_append, String.intercalate_singleton] at hjoin
    exact .inl ⟨rfl, by rwa [hjoin]⟩
  | cons variant variants =>
    refine .inr ⟨variant, variants, rfl, ?_⟩
    obtain ⟨next, others, hnext⟩ : ∃ next others, variants ++ [(parse token).base] = next :: others := by
      cases variants with
      | nil => exact ⟨_, _, rfl⟩
      | cons next others => exact ⟨_, _, rfl⟩
    rw [hvariants, List.cons_append, hnext, String.intercalate_cons_cons] at hjoin
    obtain ⟨c, rest, hchars, hdigit⟩ := Text.opensNegative_iff.1 h
    rw [← hjoin, String.toList_append, String.toList_append, List.append_assoc] at hchars
    -- neither of the first two characters is the colon behind the variant
    cases hfirst : variant.toList with
    | nil =>
      rw [hfirst] at hchars
      exact absurd (List.cons.inj hchars).1 (by decide)
    | cons d ds =>
      rw [hfirst] at hchars
      obtain ⟨rfl, hrest⟩ := List.cons.inj hchars
      cases ds with
      | nil =>
        obtain rfl : ':' = c := (List.cons.inj hrest).1
        exact absurd hdigit (by decide)
      | cons e es =>
        obtain ⟨rfl, -⟩ := List.cons.inj hrest
        exact hdigit

end Token

namespace Compiler

/-- No utility begins as a negative number. -/
theorem utility?_of_opensNegative {base : String} (h : opensNegative base.toList = true) :
    standard.utility? base = none := by
  have htheme : themeColor? standard.theme base = none := by
    rw [themeColor?, Dynamic.split?_of_opensNegative h]
    rfl
  have hcatalog : standard.catalog.search base = none := by
    dsimp only [standard]
    exact Catalog.search_of_opensNegative h
  rw [utility?, hcatalog, Dynamic.resolve?_of_opensNegative h, htheme]
  rfl

/-- **A token with a rule does not begin as a negative number**: neither its first variant nor its base does. -/
theorem not_opensNegative_of_resolve? {token : String} {rule : Rule} (h : standard.resolve? token = some rule) :
    opensNegative token.toList = false := by
  rw [← Bool.not_eq_true]
  intro hnegative
  obtain ⟨base, important, utility, hbase, hutility, hhead, -⟩ := resolve?_eq_some h
  rcases Token.opensNegative_parse hnegative with ⟨-, hnegative⟩ | ⟨variant, variants, hvariants, hnegative⟩
  · have hstripped := opensNegative_stripImportant hnegative
    rw [hbase] at hstripped
    rw [utility?_of_opensNegative hstripped] at hutility
    cases hutility
  · obtain ⟨c, rest, hchars, -⟩ := Text.opensNegative_iff.1 hnegative
    have hdash : Text.after? "-" variant = some (String.ofList (c :: rest)) := by
      rw [Text.after?, hchars]
      rfl
    have hparse : Variant.parse? standard.theme variant = none := by
      dsimp only [standard]
      rw [Variant.parse?_of_dash hdash, Theme.standard_breakpoint?_of_dash hdash]
      rfl
    rw [hvariants, Selector.build?, List.mapM_cons, hparse] at hhead
    cases hhead

/-- **The class of a rule is an identifier unless its token holds a grave accent.** A token that resolves with
the full catalog and the default theme makes an identifier of CSS exactly if there is no grave accent, no
space and no control character of ASCII in it. -/
theorem class_names_break_at_grave_accents (token : String) (rule : Rule)
    (h : standard.resolve? token = some rule) :
    IsCssIdentifier (escape token) ↔ ∀ c ∈ token.toList, c ≠ '\x60' ∧ 0x20 < c.toNat ∧ c.toNat ≠ 0x7f := by
  rw [isCssIdentifier_escape_iff, not_opensNegative_of_resolve? h]
  exact and_iff_left rfl

/-- The digit in front of `2xl:flex` is escaped as a code point. -/
theorem two_xl_flex_is_identifier :
    ∃ rule, standard.resolve? "2xl:flex" = some rule ∧ IsCssIdentifier (escape "2xl:flex") := by
  have hcatalog : standard.catalog = Catalog.standard := by
    dsimp only [standard]
  have heffect : Variant.parse? standard.theme "2xl" = some (.media ⟨"@media (min-width: 96rem)", 5⟩) := rfl
  have hparse : Token.parse "2xl:flex" = ⟨["2xl"], "flex"⟩ := by decide
  obtain ⟨rule, hrule⟩ := exists_resolve?_flex hcatalog hparse heffect
  have hcovered : ("2xl:flex".toList.all fun c => decide (IsCovered c)) = true := by decide
  refine ⟨rule, hrule, (class_names_break_at_grave_accents "2xl:flex" rule hrule).2 fun c hc => ?_⟩
  exact of_decide_eq_true (List.all_eq_true.1 hcovered c hc)

/-- A grave accent in a quoted value gets into the class as it is: the token has a rule, and no blank and no
control character, but its class is no identifier. -/
theorem grave_accent_is_not_escaped :
    (standard.resolve? "content-['\x60']").isSome ∧
      ("content-['\x60']".toList.all fun c => !Text.isBlank c && 0x20 < c.toNat && c.toNat != 0x7f) ∧
      ¬ IsCssIdentifier (escape "content-['\x60']") := by
  have hbase : stripImportant (Token.parse "content-['\x60']").base = ("content-['\x60']", false) := by
    decide
  obtain ⟨utility, hutility⟩ : ∃ utility, standard.utility? "content-['\x60']" = some utility := by
    unfold utility?
    cases standard.catalog.search "content-['\x60']" with
    | some utility => exact ⟨utility, rfl⟩
    | none =>
      have hdynamic : (Dynamic.resolve? "content-['\x60']").isSome := by decide +kernel
      obtain ⟨declarations, hdeclarations⟩ := Option.isSome_iff_exists.1 hdynamic
      rw [hdeclarations]
      exact ⟨_, rfl⟩
  have hrule := resolve?_of_utility hbase (by decide) hutility rfl
  refine ⟨Option.isSome_iff_exists.2 ⟨_, hrule⟩, by decide +kernel, fun h => ?_⟩
  have hcovered := ((isCssIdentifier_escape_iff _).1 h).1
  exact absurd (hcovered '\x60' (by decide)) (by decide)

end Compiler

end AtomicCss
