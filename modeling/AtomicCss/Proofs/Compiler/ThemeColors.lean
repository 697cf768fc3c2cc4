import AtomicCss.Proofs.Catalog.Names
import AtomicCss.Proofs.Compiler.Important
import AtomicCss.Proofs.Dynamic.Composition
import AtomicCss.Proofs.Dynamic.Nesting

/-!
# The colors of a theme

A color of the theme is a utility of every family that takes a color, with an opacity or without, as long as neither
the catalog nor a dynamic utility comes first. Only the sides of a border take some names away from `border`: with a
color `x-brand`, the utility `border-x-brand` is about the inline borders and a color `brand`.

## The architecture

* **`themeColor?_member_iff`**, **`themeColor?_member_opacity_iff`** — what a color of the theme gives.
* **`Token.parse_of_not_mem`** — a text without a colon has no variants.
* **`resolve?_plain`** — the rule of a token without variants that only the theme can know; `resolve?_member` and
  `resolve?_member_opacity` say it of a family and a color.
* **`theme_colors_answer_to_families`** — the rules of the colors of a theme.
-/

namespace AtomicCss

open Text (isIdentifier)
open Catalog (member)

/-! ## Colors of the theme -/

namespace Declaration

/-- What is set tells which properties are set. -/
theorem properties_of_each_eq {properties properties' : List String} {value value' : String}
    (h : each properties value = each properties' value') : properties = properties' := by
  induction properties generalizing properties' with
  | nil =>
    cases properties' with
    | nil => rfl
    | cons property' properties' => cases h
  | cons property properties ih =>
    cases properties' with
    | nil => cases h
    | cons property' properties' =>
      obtain ⟨hfirst, hrest⟩ := List.cons.inj h
      rw [(Declaration.property.inj hfirst).1, ih hrest]

end Declaration

namespace Compiler

variable {theme : Theme} {family name : String} {properties : List String}

theorem themeColor?_of_split? {base : String} (hsplit : ColorFamily.split? base = some (properties, name))
    (hname : ∀ c ∈ name.toList, Text.isNameChar c = true) :
    themeColor? theme base =
      if theme.colors.contains name then some (Declaration.each properties (Palette.reference name)) else none := by
  have hslash : '/' ∉ name.toList := fun hmem => absurd (hname _ hmem) (by decide)
  have hopacity : Dynamic.splitOpacity? name = none := by
    rw [Dynamic.splitOpacity?, Text.cutLastOutside?, Text.cutLastOutside_eq_none hslash]
    rfl
  rw [themeColor?, hsplit]
  simp [hopacity, themeColorValue]

/-- Without a color in front of the opacity there is none. -/
theorem themeColor?_of_split?_opacity {base modifier percentage : String} (hvalid : theme.validate = .ok ())
    (hsplit : ColorFamily.split? base = some (properties, name ++ "/" ++ modifier))
    (hname : ∀ c ∈ name.toList, Text.isNameChar c = true) (hopacity : Dynamic.opacity? modifier = some percentage) :
    themeColor? theme base =
      if theme.colors.contains name then
        some (Declaration.each properties (Dynamic.colorMix (Palette.reference name) percentage))
      else none := by
  rw [themeColor?, hsplit]
  by_cases hempty : name = ""
  · subst hempty
    have hnone : Dynamic.splitOpacity? ("/" ++ modifier) = none := Dynamic.splitOpacity?_without_color hopacity
    have hslash : theme.colors.contains ("/" ++ modifier) = false := by
      rw [← Bool.not_eq_true]
      intro hcolor
      exact Text.not_mem_of_isIdentifier (Theme.isIdentifier_of_color hvalid hcolor) (c := '/') (by decide) (by simp)
    have hblank : theme.colors.contains "" = false := by
      rw [← Bool.not_eq_true]
      intro hcolor
      exact absurd (Theme.isIdentifier_of_color hvalid hcolor) (by decide)
    simp [hnone, hslash, hblank]
  · have hdepth : Text.depth name.toList = 0 := Text.depth_of_forall fun c hc =>
      Dynamic.isBracket_of_isNameChar (hname c hc)
    simp [Dynamic.splitOpacity?_append hdepth hempty hopacity, themeColorValue]

/-- The color of a side is no color of the border. -/
theorem themeColor?_ne_of_isSideColor (hfamily : (family, properties) ∈ ColorFamily.table)
    (hside : ColorFamily.IsSideColor family name) (value : String) :
    themeColor? theme (member family name) ≠ some (Declaration.each properties value) := by
  intro h
  obtain ⟨properties', rest, hsplit, hne⟩ := ColorFamily.split?_of_isSideColor hfamily hside
  obtain ⟨found, rest', hfound, hdeclarations⟩ := themeColor?_eq_some h
  obtain ⟨rfl, -⟩ := Prod.mk.inj (Option.some.inj (hsplit.symm.trans hfound))
  rcases hdeclarations with ⟨-, hdeclarations⟩ | ⟨_, _, -, -, hdeclarations⟩
  · exact hne (Declaration.properties_of_each_eq hdeclarations).symm
  · exact hne (Declaration.properties_of_each_eq hdeclarations).symm

/-- **A color behind a family**, unless it is that of a side. -/
theorem themeColor?_member_iff (hfamily : (family, properties) ∈ ColorFamily.table) (hname : isIdentifier name = true)
    (hcolor : theme.colors.contains name = true) :
    themeColor? theme (member family name) = some (Declaration.each properties (Palette.reference name)) ↔
      ¬ ColorFamily.IsSideColor family name :=
  ⟨fun h hside => themeColor?_ne_of_isSideColor hfamily hside _ h,
    fun hside => (themeColor?_of_split? (ColorFamily.split?_member hfamily hside)
      (Text.all_isNameChar_of_isIdentifier hname)).trans (if_pos hcolor)⟩

/-- **The same with an opacity.** -/
theorem themeColor?_member_opacity_iff (hvalid : theme.validate = .ok ())
    (hfamily : (family, properties) ∈ ColorFamily.table) (hcolor : theme.colors.contains name = true) {modifier percentage : String}
    (hopacity : Dynamic.opacity? modifier = some percentage) :
    themeColor? theme (member family (name ++ "/" ++ modifier)) =
        some (Declaration.each properties (Dynamic.colorMix (Palette.reference name) percentage)) ↔
      ¬ ColorFamily.IsSideColor family name := by
  have hside : ColorFamily.IsSideColor family (name ++ "/" ++ modifier) ↔ ColorFamily.IsSideColor family name := by
    have htext : ("/" ++ modifier).toList = '/' :: modifier.toList := by simp
    rw [String.append_assoc]
    exact ColorFamily.isSideColor_append_iff htext (by decide)
  constructor
  · intro h hborder
    exact themeColor?_ne_of_isSideColor hfamily (hside.2 hborder) _ h
  · intro hfree
    have hsplit := ColorFamily.split?_member hfamily fun h => hfree (hside.1 h)
    have hname := Text.all_isNameChar_of_isIdentifier (Theme.isIdentifier_of_color hvalid hcolor)
    exact (themeColor?_of_split?_opacity hvalid hsplit hname hopacity).trans (if_pos hcolor)

end Compiler

/-! ## Tokens without variants -/

/-- A text without a colon has no variants. -/
theorem Token.parse_of_not_mem {token : String} (h : ':' ∉ token.toList) : parse token = ⟨[], token⟩ := by
  have hwhole : IsWhole 0 token.toList := fun i hcut => h (List.mem_of_getElem? hcut.1)
  have hparse : parse "" = ⟨[], ""⟩ := rfl
  have hbase := parse_replaceBase hparse hwhole
  rwa [List.nil_append, String.intercalate_singleton] at hbase

/-- The rule of a class without variants. -/
def Rule.plain (token : String) (declarations : List Declaration) : Rule where
  selector := "." ++ escape token
  declarations := declarations
  media := none
  container := none
  keyframes := none

namespace Compiler

variable {token : String}

/-- **A token without variants that neither the catalog nor a dynamic utility knows** is a color of the theme. -/
theorem resolve?_plain (compiler : Compiler) (hcolon : ':' ∉ token.toList) (hmark : '!' ∉ token.toList)
    (hne : token ≠ "") (hsearch : compiler.catalog.search token = none) (hresolve : Dynamic.resolve? token = none) :
    compiler.resolve? token = (themeColor? compiler.theme token).map (Rule.plain token) := by
  have hstrip : stripImportant token = (token, false) :=
    stripImportant_plain (fun h => hmark (List.mem_of_head? h)) fun h => hmark (List.mem_of_getLast? h)
  rw [compiler.resolve?_of_parse (Token.parse_of_not_mem hcolon) hstrip hne, utility?, hsearch, hresolve,
    Option.none_or, Option.none_or]
  cases themeColor? compiler.theme token with
  | none => rfl
  | some declarations =>
    show some (ruleOf _ false ((Draft.ofToken token).finish none)) = some (Rule.plain token declarations)
    simp [ruleOf, Rule.plain, Draft.ofToken, Draft.finish, Draft.subject, declarationsOf]

theorem map_plain_eq_some_iff {found : Option (List Declaration)} {declarations : List Declaration} :
    found.map (Rule.plain token) = some (Rule.plain token declarations) ↔ found = some declarations := by
  rw [Option.map_eq_some_iff]
  constructor
  · rintro ⟨declarations', hfound, hrule⟩
    rw [hfound, show declarations' = declarations from congrArg Rule.declarations hrule]
  · exact fun hfound => ⟨declarations, hfound, rfl⟩

/-- The rule of such a token tells what color it is. -/
theorem resolve?_eq_plain_iff (compiler : Compiler) (hcolon : ':' ∉ token.toList) (hmark : '!' ∉ token.toList)
    (hne : token ≠ "") (hsearch : compiler.catalog.search token = none) (hresolve : Dynamic.resolve? token = none)
    (declarations : List Declaration) :
    compiler.resolve? token = some (Rule.plain token declarations) ↔
      themeColor? compiler.theme token = some declarations := by
  rw [compiler.resolve?_plain hcolon hmark hne hsearch hresolve, map_plain_eq_some_iff]

/-! ## A family and a color -/

theorem isIdentifier_member (hfamily : (family, properties) ∈ ColorFamily.table) (hname : isIdentifier name = true) :
    isIdentifier (member family name) = true := by
  have hprefix : isIdentifier family = true := Dynamic.isIdentifier_of_mem_knownFamilies
    (Dynamic.mem_knownFamilies_of_mem_table (List.mem_map_of_mem hfamily))
  refine Text.isIdentifier_append (List.all_eq_true.2 ?_) hname
  rw [String.toList_append]
  exact Text.all_isNameChar_dash hprefix

theorem resolve?_member (compiler : Compiler) (hfamily : (family, properties) ∈ ColorFamily.table)
    (hname : isIdentifier name = true) (hsearch : compiler.catalog.search (member family name) = none)
    (hresolve : Dynamic.resolve? (member family name) = none) :
    compiler.resolve? (member family name) =
      (themeColor? compiler.theme (member family name)).map (Rule.plain (member family name)) := by
  have hmember := isIdentifier_member hfamily hname
  exact compiler.resolve?_plain (Text.not_mem_of_isIdentifier hmember (by decide))
    (Text.not_mem_of_isIdentifier hmember (by decide)) (Text.isIdentifier_iff.1 hmember).1 hsearch hresolve

theorem resolve?_member_opacity (compiler : Compiler) (hfamily : (family, properties) ∈ ColorFamily.table)
    (hname : isIdentifier name = true) {modifier percentage : String}
    (hopacity : Dynamic.opacity? modifier = some percentage)
    (htoken : token = member family name ++ "/" ++ modifier) (hsearch : compiler.catalog.search token = none)
    (hresolve : Dynamic.resolve? token = none) :
    compiler.resolve? token = (themeColor? compiler.theme token).map (Rule.plain token) := by
  have hmember := isIdentifier_member hfamily hname
  -- neither the name nor the modifier holds a colon or an exclamation mark
  have hfree {c : Char} (hslash : c ≠ '/') (hc : Dynamic.isModifierChar c = false) : c ∉ token.toList := by
    have hchar : Text.isNameChar c = false := (Bool.or_eq_false_iff.1 hc).1
    have hmodifier : c ∉ modifier.toList := fun hmem => by
      rw [Dynamic.isModifierChar_of_opacity? hopacity c hmem] at hc
      cases hc
    simp [htoken, Text.not_mem_of_isIdentifier hmember hchar, hslash, hmodifier]
  exact compiler.resolve?_plain (hfree (by decide) (by decide)) (hfree (by decide) (by decide)) (by simp [htoken])
    hsearch hresolve

/-- **The colors of a theme are utilities of every family**, unless the name that is written begins with a side of the
border. In a theme that passes its check take any color, and any family that takes a color. If neither the catalog nor a
dynamic utility knows the family with the name behind it, then this token has a rule for its own class without any
query, that sets the properties of the family to the color, exactly if the family is not that of the border or the name
does not begin with one of its sides and a dash. With an opacity it is the same, and the color is mixed accordingly.
A name that begins with a side is read as the family of this side and the rest of the name: if the rest is a color, then
the properties of the side are set to it, and otherwise there is no rule. -/
theorem theme_colors_answer_to_families (compiler : Compiler) (hvalid : compiler.theme.validate = .ok ())
    {family name : String} {properties : List String} (hcolor : compiler.theme.colors.contains name = true)
    (hfamily : (family, properties) ∈ ColorFamily.table) :
    (compiler.catalog.search (member family name) = none → Dynamic.resolve? (member family name) = none →
      (compiler.resolve? (member family name) =
          some (Rule.plain (member family name) (Declaration.each properties (Palette.reference name))) ↔
        ¬ ColorFamily.IsSideColor family name)) ∧
    (∀ modifier percentage token, Dynamic.opacity? modifier = some percentage →
      token = member family name ++ "/" ++ modifier →
      compiler.catalog.search token = none → Dynamic.resolve? token = none →
        (compiler.resolve? token = some (Rule.plain token (Declaration.each properties
            (Dynamic.colorMix (Palette.reference name) percentage))) ↔
          ¬ ColorFamily.IsSideColor family name)) ∧
    ∀ side rest, family = "border" → side ∈ ColorFamily.sides → name = side ++ "-" ++ rest →
      ∃ sideProperties, (member family side, sideProperties) ∈ ColorFamily.table ∧ sideProperties ≠ properties ∧
        (compiler.catalog.search (member family name) = none → Dynamic.resolve? (member family name) = none →
          compiler.resolve? (member family name) =
            if compiler.theme.colors.contains rest then
              some (Rule.plain (member family name) (Declaration.each sideProperties (Palette.reference rest)))
            else none) ∧
        ∀ modifier percentage token, Dynamic.opacity? modifier = some percentage →
          token = member family name ++ "/" ++ modifier →
          compiler.catalog.search token = none → Dynamic.resolve? token = none →
            compiler.resolve? token =
              if compiler.theme.colors.contains rest then
                some (Rule.plain token (Declaration.each sideProperties
                  (Dynamic.colorMix (Palette.reference rest) percentage)))
              else none := by
  have hname := Theme.isIdentifier_of_color hvalid hcolor
  have hwhole (modifier : String) : member family name ++ "/" ++ modifier = member family (name ++ "/" ++ modifier) := by
    simp only [member, String.append_assoc]
  refine ⟨fun hsearch hresolve => ?_, fun modifier percentage token hopacity htoken hsearch hresolve => ?_, ?_⟩
  · rw [compiler.resolve?_member hfamily hname hsearch hresolve, map_plain_eq_some_iff]
    exact themeColor?_member_iff hfamily hname hcolor
  · rw [compiler.resolve?_member_opacity hfamily hname hopacity htoken hsearch hresolve, map_plain_eq_some_iff, htoken,
      hwhole]
    exact themeColor?_member_opacity_iff hvalid hfamily hcolor hopacity
  · rintro side rest rfl hside rfl
    obtain ⟨sideProperties, hmem, hne, hsplit⟩ := ColorFamily.split?_side hside hfamily
    have hrest : ∀ c ∈ rest.toList, Text.isNameChar c = true := fun c hc =>
      Text.all_isNameChar_of_isIdentifier hname c (by simp [hc])
    refine ⟨sideProperties, hmem, hne, fun hsearch hresolve => ?_,
      fun modifier percentage token hopacity htoken hsearch hresolve => ?_⟩
    · rw [compiler.resolve?_member hfamily hname hsearch hresolve, themeColor?_of_split? (hsplit rest) hrest]
      split <;> rfl
    · have hbase : token = member "border" (side ++ "-" ++ (rest ++ "/" ++ modifier)) := by
        rw [htoken, hwhole]
        simp only [String.append_assoc]
      rw [compiler.resolve?_member_opacity hfamily hname hopacity htoken hsearch hresolve,
        themeColor?_of_split?_opacity hvalid (hbase ▸ hsplit _) hrest hopacity]
      split <;> rfl

/-- The full catalog with two colors of a theme, of which one is named after a side. -/
def brandCompiler : Compiler where
  catalog := Catalog.standard
  theme := { colors := OrderedMap.ofList [("Brand", "#123456"), ("x-Brand", "#654321")] }
  library := Library.builtin

theorem catalog_brandCompiler : brandCompiler.catalog = Catalog.standard := by
  dsimp only [brandCompiler]

theorem search_brandCompiler {name : String} (h : 'B' ∈ name.toList) : brandCompiler.catalog.search name = none := by
  rw [catalog_brandCompiler]
  exact Catalog.search_of_not_isNameLetter h (by decide)

/-- A color of the theme colors a border, with an opacity too. -/
theorem border_takes_brand :
    brandCompiler.theme.validate = .ok () ∧
    brandCompiler.resolve? "border-Brand" =
      some (.plain "border-Brand" [.property "border-color" "var(--color-Brand)"]) ∧
    brandCompiler.resolve? "border-Brand/50" =
      some (.plain "border-Brand/50"
        [.property "border-color" "color-mix(in oklab, var(--color-Brand) 50%, transparent)"]) := by
  have hvalid : brandCompiler.theme.validate = .ok () := by decide
  have hcolor : brandCompiler.theme.colors.contains "Brand" = true := by decide
  have hfamily : ("border", ["border-color"]) ∈ ColorFamily.table := by decide
  have hplain := theme_colors_answer_to_families brandCompiler hvalid hcolor hfamily
  refine ⟨hvalid, ?_, ?_⟩
  · exact (hplain.1 (search_brandCompiler (by decide)) (by decide +kernel)).2 (by decide)
  · exact (hplain.2.1 "50" "50%" "border-Brand/50" (by decide +kernel) (by decide) (search_brandCompiler (by decide))
      (by decide +kernel)).2 (by decide)

/-- **The side of a border comes first.** With the color `x-Brand` a border cannot be colored, since `border-x-Brand` is
about the inline borders and the color `Brand`. -/
theorem border_x_brand_is_an_inline_border :
    brandCompiler.resolve? "border-x-Brand" =
      some (.plain "border-x-Brand" [.property "border-inline-color" "var(--color-Brand)"]) ∧
    ¬ ∀ (compiler : Compiler) (family name : String) (properties : List String),
        compiler.catalog = Catalog.standard → compiler.theme.validate = .ok () →
        compiler.theme.colors.contains name = true → (family, properties) ∈ ColorFamily.table →
        compiler.catalog.search (member family name) = none → Dynamic.resolve? (member family name) = none →
          (compiler.resolve? (member family name)).map Rule.declarations =
            some (Declaration.each properties (Palette.reference name)) := by
  have hsearch : brandCompiler.catalog.search "border-x-Brand" = none := search_brandCompiler (by decide)
  have hresolve : Dynamic.resolve? "border-x-Brand" = none := by decide +kernel
  have hcolor : themeColor? brandCompiler.theme "border-x-Brand" =
      some [.property "border-inline-color" "var(--color-Brand)"] := by decide +kernel
  have hrule : brandCompiler.resolve? "border-x-Brand" =
      some (.plain "border-x-Brand" [.property "border-inline-color" "var(--color-Brand)"]) :=
    (brandCompiler.resolve?_eq_plain_iff (by decide) (by decide) (by decide) hsearch hresolve _).2 hcolor
  refine ⟨hrule, fun hall => ?_⟩
  have h := hall brandCompiler "border" "x-Brand" ["border-color"] catalog_brandCompiler (by decide) (by decide)
    (by decide)
  rw [show member "border" "x-Brand" = "border-x-Brand" by decide, hrule] at h
  exact absurd (h hsearch hresolve) (by decide)

end Compiler

end AtomicCss
