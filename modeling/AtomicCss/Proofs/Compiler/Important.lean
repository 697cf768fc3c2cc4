import AtomicCss.Proofs.Compiler.Resolution
import AtomicCss.Proofs.Selector.Slots
import AtomicCss.Proofs.Variant.Segments

/-!
# Important marks

An exclamation mark in front of the base of a token, or behind it, makes every value of its rule important. The
mark goes through the whole way from the token to the rule: it must not change where the token is cut, it is taken
off before the base is looked up, and all that is left of it are the values and the class in the selector.

## The architecture

* **`Token.parse_replaceBase`** — the base of a token can be replaced by any text without cuts, and a mark makes no
  cut (`Token.isWhole_mark`).
* **`stripImportant_front`** and its kin — what is taken off.
* **`Declaration.Marks`** — two declarations that differ in the marks of their values.
* **`Compiler.resolve?_of_parse`** — the rule of a token from its parts.
* **`Compiler.marks_show_in_values`** — the rule of a token and those of the same token with a mark.
-/

namespace AtomicCss

/-! ## Cutting a marked token -/

namespace Token

theorem isWhole_mark (d : Int) (cs : List Char) : IsWhole d ('!' :: cs) ↔ IsWhole d cs := by
  have hweight : d + Text.weight '!' = d := by
    rw [show Text.weight '!' = 0 by decide, Int.add_zero]
  rw [isWhole_cons, hweight]
  exact and_iff_right fun h => absurd h.1 (by decide)

theorem isWhole_append_mark (d : Int) (cs : List Char) : IsWhole d (cs ++ ['!']) ↔ IsWhole d cs := by
  induction cs generalizing d with
  | nil => exact isWhole_mark d []
  | cons c cs ih => rw [List.cons_append, isWhole_cons, isWhole_cons, ih]

/-- The variants of a token are level and without cuts, and the base has no cuts either. -/
theorem variants_and_base {token base : String} {variants : List String} (hparse : parse token = ⟨variants, base⟩) :
    (∀ variant ∈ variants, (∀ i, ¬ CutsAt variant.toList i) ∧ Text.IsLevel variant.toList) ∧
      IsWhole 0 base.toList := by
  have hjoin : (parse (":".intercalate (parse token).parts)).parts = (parse token).parts := by
    rw [intercalate_parts_parse]
  rw [hparse, parts_parse_eq_iff, show parts ⟨variants, base⟩ = variants ++ [base] from rfl,
    List.dropLast_concat] at hjoin
  obtain ⟨-, hcuts, hlevel⟩ := hjoin
  refine ⟨fun variant h => ⟨hcuts variant (List.mem_append_left _ h), hlevel variant h⟩, ?_⟩
  exact isWhole_zero_iff.2 (hcuts base (List.mem_append_right _ (List.mem_singleton_self _)))

/-- **The base of a token can be replaced** by any text without cuts. -/
theorem parse_replaceBase {token base base' : String} {variants : List String}
    (hparse : parse token = ⟨variants, base⟩) (hbase' : IsWhole 0 base'.toList) :
    parse (":".intercalate (variants ++ [base'])) = ⟨variants, base'⟩ := by
  have hvariants := (variants_and_base hparse).1
  have hparts' : (parse (":".intercalate (variants ++ [base']))).parts = variants ++ [base'] := by
    rw [parts_parse_eq_iff, List.dropLast_concat]
    refine ⟨by simp, fun text htext => ?_, fun text htext => (hvariants text htext).2⟩
    rcases List.mem_append.1 htext with htext | htext
    · exact (hvariants text htext).1
    · obtain rfl := List.mem_singleton.1 htext
      exact isWhole_zero_iff.1 hbase'
  -- variants and base are told from the parts, of which the base is the last
  cases hp : parse (":".intercalate (variants ++ [base'])) with
  | mk variants' base'' =>
    rw [hp] at hparts'
    obtain ⟨hvariants, hbase⟩ := List.append_inj' hparts' rfl
    rw [show variants' = variants from hvariants, show base'' = base' from (List.cons.inj hbase).1]

end Token

/-! ## Taking the mark off -/

theorem stripImportant_front (base : String) : stripImportant ("!" ++ base) = (base, true) := by
  unfold stripImportant
  rw [String.toList_append]
  show (String.ofList base.toList, true) = (base, true)
  rw [String.ofList_toList]

/-- A text that does not begin with a mark keeps its beginning. -/
theorem stripImportant_of_head {base : String} (h : base.toList.head? ≠ some '!') :
    stripImportant base =
      match base.toList.getLast? with
      | some '!' => (String.ofList base.toList.dropLast, true)
      | _ => (base, false) := by
  unfold stripImportant
  split
  · rename_i rest hchars
    rw [hchars] at h
    exact absurd rfl h
  · rfl

theorem stripImportant_behind {base : String} (hne : base ≠ "") (h : base.toList.head? ≠ some '!') :
    stripImportant (base ++ "!") = (base, true) := by
  have hchars : (base ++ "!").toList = base.toList ++ ['!'] := String.toList_append
  obtain ⟨c, cs, hcs⟩ := List.exists_cons_of_ne_nil (l := base.toList) (by simpa using hne)
  have hhead : (base ++ "!").toList.head? ≠ some '!' := by
    rw [hchars, hcs]
    rw [hcs] at h
    exact h
  rw [stripImportant_of_head hhead, hchars, List.getLast?_concat, List.dropLast_concat, String.ofList_toList]
  rfl

theorem stripImportant_plain {base : String} (h : base.toList.head? ≠ some '!')
    (hlast : base.toList.getLast? ≠ some '!') : stripImportant base = (base, false) := by
  rw [stripImportant_of_head h]
  split
  · rename_i hmark
    exact absurd hmark hlast
  · rfl

/-! ## Marked declarations -/

namespace Declaration

/-- A declaration and the same with ` !important` behind every value, in a block too. -/
inductive Marks : Declaration → Declaration → Prop where
  | property (name value : String) : Marks (.property name value) (.property name (value ++ " !important"))
  | supports (condition : String) {properties properties' : List (String × String)}
      (h : List.Forall₂ (fun p p' => p'.1 = p.1 ∧ p'.2 = p.2 ++ " !important") properties properties') :
      Marks (.supports condition properties) (.supports condition properties')

theorem marks_important (declaration : Declaration) : Marks declaration declaration.important := by
  cases declaration with
  | property name value => exact .property name value
  | supports condition properties =>
    refine .supports condition (List.forall₂_map_right_iff.2 (List.forall₂_same.2 ?_))
    exact fun p _ => ⟨rfl, rfl⟩

theorem forall₂_marks (declarations : List Declaration) :
    List.Forall₂ Marks declarations (declarations.map important) :=
  List.forall₂_map_right_iff.2 (List.forall₂_same.2 fun d _ => marks_important d)

end Declaration

/-! ## The rules -/

/-- Selectors of two tokens with the same variants have the same queries. -/
theorem Selector.queries_eq_of_build? {theme : Theme} {token token' : String} {variants : List String}
    {suffix : Option String} {head head' : Selector} (h : build? theme token variants suffix = some head)
    (h' : build? theme token' variants suffix = some head') :
    head'.media = head.media ∧ head'.container = head.container := by
  obtain ⟨effects, heffects, -⟩ := Option.map_eq_some_iff.1 h
  obtain ⟨hmedia, hcontainer⟩ := queries_build? theme token suffix heffects h
  obtain ⟨hmedia', hcontainer'⟩ := queries_build? theme token' suffix heffects h'
  exact ⟨hmedia'.trans hmedia.symm, hcontainer'.trans hcontainer.symm⟩

namespace Compiler

/-- The rule of a utility with a selector, marked or not. -/
def ruleOf (utility : Utility) (important : Bool) (head : Selector) : Rule where
  selector := head.selector
  declarations := declarationsOf utility important
  media := head.media
  container := head.container
  keyframes := utility.keyframes

/-- **The rule of a token from its parts**: the token itself is only asked for the selector. -/
theorem resolve?_of_parse (compiler : Compiler) {token base name : String} {variants : List String}
    {important : Bool} (hparse : Token.parse token = ⟨variants, base⟩)
    (hstrip : stripImportant base = (name, important)) (hne : name ≠ "") :
    compiler.resolve? token = (compiler.utility? name).bind fun utility =>
      (Selector.build? compiler.theme token variants utility.suffix).map (ruleOf utility important) := by
  have hne : name.isEmpty = false := by rwa [← Bool.not_eq_true, String.isEmpty_iff]
  unfold resolve?
  simp only [hparse, hstrip, hne, Bool.false_eq_true, if_false, Option.map_eq_bind]
  rfl

/-- **Of a mark, values and the class are all that shows.** Let a token be cut into variants and a base that is not
empty and neither begins nor ends with an exclamation mark, and put such a mark in front of the base or behind it.
The marked token has a rule exactly if the token has. Its rule then has the queries and the keyframes of that of the
token, the same declarations with ` !important` behind every value, also in blocks, and the selector that the same
variants and the same suffix of the utility make of the marked token. -/
theorem marks_show_in_values (compiler : Compiler) {token base marked : String} {variants : List String}
    (hparse : Token.parse token = ⟨variants, base⟩) (hne : base ≠ "")
    (hfirst : base.toList.head? ≠ some '!') (hlast : base.toList.getLast? ≠ some '!')
    (hmarked : marked = "!" ++ base ∨ marked = base ++ "!") :
    ((compiler.resolve? (":".intercalate (variants ++ [marked]))).isSome ↔ (compiler.resolve? token).isSome) ∧
    ∀ rule rule', compiler.resolve? token = some rule →
      compiler.resolve? (":".intercalate (variants ++ [marked])) = some rule' →
      rule'.media = rule.media ∧ rule'.container = rule.container ∧ rule'.keyframes = rule.keyframes ∧
      List.Forall₂ Declaration.Marks rule.declarations rule'.declarations ∧
      ∃ utility, compiler.utility? base = some utility ∧
        Selector.build? compiler.theme token variants utility.suffix = some rule.head ∧
        Selector.build? compiler.theme (":".intercalate (variants ++ [marked])) variants utility.suffix =
          some rule'.head := by
  -- the mark makes no cut and is taken off again
  have hwhole : Token.IsWhole 0 marked.toList := by
    rcases hmarked with rfl | rfl
    · rw [String.toList_append]
      exact (Token.isWhole_mark 0 _).2 (Token.variants_and_base hparse).2
    · rw [String.toList_append]
      exact (Token.isWhole_append_mark 0 _).2 (Token.variants_and_base hparse).2
  have hstrip : stripImportant marked = (base, true) := by
    rcases hmarked with rfl | rfl
    · exact stripImportant_front base
    · exact stripImportant_behind hne hfirst
  have hplain := compiler.resolve?_of_parse hparse (stripImportant_plain hfirst hlast) hne
  have hmark := compiler.resolve?_of_parse (Token.parse_replaceBase hparse hwhole) hstrip hne
  rw [hplain, hmark]
  cases hutility : compiler.utility? base with
  | none => simp
  | some utility =>
    simp only [Option.bind_some, Option.isSome_map, Selector.isSome_build?_iff, true_and]
    intro rule rule' hrule hrule'
    obtain ⟨head, hhead, rfl⟩ := Option.map_eq_some_iff.1 hrule
    obtain ⟨head', hhead', rfl⟩ := Option.map_eq_some_iff.1 hrule'
    obtain ⟨hmedia, hcontainer⟩ := Selector.queries_eq_of_build? hhead hhead'
    exact ⟨hmedia, hcontainer, rfl, Declaration.forall₂_marks utility.declarations, utility, rfl, hhead, hhead'⟩

/-- A property with an opacity behind a variant, and the same with a mark in front: both properties that it sets are
marked, the one in the block too. -/
theorem marked_ink_in_block :
    let compiler : Compiler := ⟨∅, Theme.empty, ∅⟩
    let block (value : String) : Declaration := .supports Dynamic.colorMixSupport [("--ink", value)]
    Token.parse "hover:[--ink:red]/50" = ⟨["hover"], "[--ink:red]/50"⟩ ∧
    (∃ rule, compiler.resolve? "hover:[--ink:red]/50" = some rule ∧
      rule.declarations = [.property "--ink" "red", block "color-mix(in oklab, red 50%, transparent)"]) ∧
    ∃ rule', compiler.resolve? "hover:![--ink:red]/50" = some rule' ∧
      ∃ d d', rule'.declarations = [d, d'] ∧ Declaration.Marks (.property "--ink" "red") d ∧
        Declaration.Marks (block "color-mix(in oklab, red 50%, transparent)") d' := by
  intro compiler block
  have hparse : Token.parse "hover:[--ink:red]/50" = ⟨["hover"], "[--ink:red]/50"⟩ := by decide +kernel
  have hmarked : "![--ink:red]/50" = "!" ++ "[--ink:red]/50" := by decide
  obtain ⟨hsome, hrules⟩ :=
    marks_show_in_values compiler hparse (by decide) (by decide) (by decide) (.inl hmarked)
  have htoken : ":".intercalate (["hover"] ++ ["![--ink:red]/50"]) = "hover:![--ink:red]/50" := by decide
  rw [htoken] at hsome hrules
  have hvalues : (compiler.resolve? "hover:[--ink:red]/50").map Rule.declarations =
      some [.property "--ink" "red", block "color-mix(in oklab, red 50%, transparent)"] := by
    decide +kernel
  obtain ⟨rule, hrule, hdeclarations⟩ := Option.map_eq_some_iff.1 hvalues
  obtain ⟨rule', hrule'⟩ := Option.isSome_iff_exists.1 (hsome.2 (by rw [hrule]; rfl))
  obtain ⟨-, -, -, hmarks, -⟩ := hrules rule rule' hrule hrule'
  rw [hdeclarations] at hmarks
  obtain ⟨d, rest, hd, hrest, heq⟩ := List.forall₂_cons_left_iff.1 hmarks
  obtain ⟨d', rest', hd', hrest', rfl⟩ := List.forall₂_cons_left_iff.1 hrest
  obtain rfl := List.forall₂_nil_left_iff.1 hrest'
  exact ⟨hparse, ⟨rule, hrule, hdeclarations⟩, rule', hrule', d, d', heq, hd, hd'⟩

end Compiler

end AtomicCss
