import AtomicCss.Proofs.Text.Exposed
import AtomicCss.Proofs.Variant.Inversion

/-!
# Attributes as conditions

What stands behind `aria-` or `data-` becomes an attribute selector. Its name is always an identifier. A value that
comes without quotes is put in quotes, any other is taken as it stands, and which of the two it is the first character
says alone. So a value can bring an opening quote and no closing one, and a value without quotes in front can hold
one that closes the string too early. `ClosesQuotes` says when neither happens.

## The architecture

* **`IsString`**, **`IsAttributeSelector`** — what a well-formed attribute selector is.
* **`isAttributeSelector_valued_iff`** — the name and the value of an attribute selector can be told apart, so one with
  a value is well-formed exactly if its value is a string.
* **`isString_quote_iff`** — which values make strings.
* **`attributeVariant?_cases`** — the three ways to write an attribute.
* **`attribute_conditions_close_their_quotes`** — which attributes make well-formed selectors, wherever they stand.
-/

namespace AtomicCss.Variant

open Text (isIdentifier)

/-! ## Attribute selectors -/

/-- A string in a selector: text between two quotes of one kind, of which none stands in between, unless behind a
backslash. -/
def IsString (s : String) : Prop :=
  ∃ quote ∈ ['"', '\''], ∃ body : List Char,
    s.toList = quote :: body ++ [quote] ∧ quote ∉ Text.exposed false body

/-- The name of an `aria` or `data` attribute. -/
def IsAttributeName (name : String) : Prop :=
  ∃ family ∈ ["aria", "data"], ∃ key, isIdentifier key = true ∧ name = family ++ "-" ++ key

/-- The selector of an attribute, without or with its value. -/
inductive IsAttributeSelector (s : String) : Prop
  | bare {name : String} (hname : IsAttributeName name) (h : s = "[" ++ name ++ "]")
  | valued {name text : String} (hname : IsAttributeName name) (htext : IsString text)
      (h : s = "[" ++ name ++ "=" ++ text ++ "]")

/-- Whether a text is a string in quotes of the given kind. -/
def isQuotedIn (s : String) (quote : Char) : Bool :=
  s.toList.head? == some quote && s.toList.tail.getLast? == some quote &&
    !(Text.exposed false s.toList.tail.dropLast).contains quote

theorem isString_iff {s : String} : IsString s ↔ ['"', '\''].any (isQuotedIn s) = true := by
  simp only [List.any_eq_true, isQuotedIn, Bool.and_eq_true, beq_iff_eq, Bool.not_eq_true', ← Bool.not_eq_true,
    List.contains_iff_mem]
  constructor
  · rintro ⟨quote, hquote, body, hchars, hbody⟩
    refine ⟨quote, hquote, ?_⟩
    simpa [hchars] using hbody
  · rintro ⟨quote, hquote, ⟨hhead, hlast⟩, hbody⟩
    refine ⟨quote, hquote, s.toList.tail.dropLast, ?_, hbody⟩
    rw [List.cons_append, List.dropLast_append_getLast? _ hlast]
    exact (List.cons_head?_tail hhead).symm

instance : DecidablePred IsString :=
  fun _ => decidable_of_iff _ isString_iff.symm

theorem isIdentifier_of_isAttributeName {name : String} (h : IsAttributeName name) : isIdentifier name = true := by
  obtain ⟨family, hfamily, key, hkey, rfl⟩ := h
  refine Text.isIdentifier_append ?_ hkey
  rcases List.mem_pair.1 hfamily with rfl | rfl <;> decide

/-- The first equals sign of an attribute selector ends its name, so what follows must be its value. -/
theorem isAttributeSelector_valued_iff {name text : String} (hname : IsAttributeName name) :
    IsAttributeSelector ("[" ++ name ++ "=" ++ text ++ "]") ↔ IsString text := by
  have hpass {name : String} (hname : IsAttributeName name) : ∀ c ∈ name.toList, Text.isNameChar c = true :=
    Text.all_isNameChar_of_isIdentifier (isIdentifier_of_isAttributeName hname)
  constructor
  · rintro (@⟨name', hname', h⟩ | @⟨name', text', hname', htext, h⟩)
    · have hchars : name.toList ++ '=' :: (text.toList ++ [']']) = name'.toList ++ ']' :: [] := by
        simpa using congrArg String.toList h
      obtain ⟨-, heq, -⟩ := Text.append_cons_inj_of_test (hpass hname) (hpass hname') rfl rfl hchars
      cases heq
    · have hchars : name.toList ++ '=' :: (text.toList ++ [']']) = name'.toList ++ '=' :: (text'.toList ++ [']']) := by
        simpa using congrArg String.toList h
      obtain ⟨-, -, heq⟩ := Text.append_cons_inj_of_test (hpass hname) (hpass hname') rfl rfl hchars
      obtain rfl : text = text' := String.toList_inj.1 (List.append_cancel_right heq)
      exact htext
  · intro htext
    exact .valued hname htext rfl

/-! ## Values in quotes -/

/-- A value as it stands in a selector. -/
def quote (value : String) : String :=
  if startsQuoted value then value else "\"" ++ value ++ "\""

/-- A value that makes a string: it is one, or it has no quote in front and no double quote inside, unless behind a
backslash. -/
def ClosesQuotes (value : String) : Prop :=
  if startsQuoted value then IsString value else '"' ∉ Text.exposed false value.toList

instance : DecidablePred ClosesQuotes :=
  fun value => inferInstanceAs (Decidable (if startsQuoted value then IsString value else _))

theorem isString_quote_iff {value : String} : IsString (quote value) ↔ ClosesQuotes value := by
  unfold quote ClosesQuotes
  split
  · exact Iff.rfl
  · constructor
    · rintro ⟨quote, -, body, hchars, hbody⟩
      have hchars : '"' :: (value.toList ++ ['"']) = quote :: (body ++ [quote]) := by
        simpa using hchars
      obtain ⟨rfl, hchars⟩ := List.cons.inj hchars
      rwa [List.append_cancel_right hchars]
    · intro hvalue
      exact ⟨'"', by simp, value.toList, by simp, hvalue⟩

/-! ## Attributes in class names -/

/-- The value that the author gives an attribute: what stands behind the first equals sign in brackets. -/
def authoredValue? (name : String) : Option String :=
  (bracketed? name).bind fun raw => (Text.cut? "=" (Text.decodeSpaces raw)).map Prod.snd

theorem bracketed?_eq_none_of_not_mem {s : String} (h : '[' ∉ s.toList) : bracketed? s = none := by
  rw [bracketed?, Text.enclosed?, Text.after?_eq_none_of_not_mem rfl h]
  rfl

theorem bracketed?_of_isIdentifier {name : String} (hname : isIdentifier name = true) : bracketed? name = none :=
  bracketed?_eq_none_of_not_mem (Text.not_mem_of_isIdentifier hname rfl)

theorem attributeVariant?_empty (family : String) : attributeVariant? family "" = none :=
  rfl

theorem attributeVariant?_of_isIdentifier {family key : String} (hkey : isIdentifier key = true) :
    attributeVariant? family key = some ("[" ++ family ++ "-" ++ key ++ "=\"true\"]") := by
  rw [attributeVariant?, bracketed?_of_isIdentifier hkey]
  exact if_pos hkey

/-- **An attribute has its value from the author, or none, or `true`.** -/
theorem attributeVariant?_cases {family name cond : String} (h : attributeVariant? family name = some cond) :
    ∃ key, isIdentifier key = true ∧
      ((∃ value, authoredValue? name = some value ∧ cond = "[" ++ (family ++ "-" ++ key) ++ "=" ++ quote value ++ "]") ∨
        authoredValue? name = none ∧
          (cond = "[" ++ (family ++ "-" ++ key) ++ "]" ∨
            cond = "[" ++ (family ++ "-" ++ key) ++ "=" ++ quote "true" ++ "]")) := by
  unfold attributeVariant? at h
  split at h
  · rename_i raw hraw
    unfold attribute? at h
    dsimp only at h
    split at h
    · rename_i key value hcut
      have hvalue : authoredValue? name = some value := by
        rw [authoredValue?, hraw, Option.bind_some, hcut]
        rfl
      split at h
      · cases h
      · rename_i hkey
        refine ⟨key, by simpa using hkey, .inl ⟨value, hvalue, ?_⟩⟩
        unfold quote
        split at h <;> rename_i hquoted <;> cases h
        · rw [if_pos hquoted]
          simp only [String.append_assoc]
        · rw [if_neg hquoted]
          simp only [String.append_assoc]
          rfl
    · rename_i hcut
      have hvalue : authoredValue? name = none := by
        rw [authoredValue?, hraw, Option.bind_some, hcut]
        rfl
      split at h
      · rename_i hkey
        cases h
        exact ⟨_, hkey, .inr ⟨hvalue, .inl (by simp only [String.append_assoc])⟩⟩
      · cases h
  · rename_i hraw
    have hvalue : authoredValue? name = none := by
      rw [authoredValue?, hraw]
      rfl
    split at h
    · rename_i hkey
      cases h
      exact ⟨name, hkey, .inr ⟨hvalue, .inr (by simp only [String.append_assoc]; rfl)⟩⟩
    · cases h

/-! ## Well-formed conditions -/

variable {family name cond : String}

theorem isAttributeName_append {key : String} (hfamily : family ∈ ["aria", "data"]) (hkey : isIdentifier key = true) :
    IsAttributeName (family ++ "-" ++ key) :=
  ⟨family, hfamily, key, hkey, rfl⟩

/-- The condition of an attribute is well-formed exactly if its value makes a string. -/
theorem isAttributeSelector_iff_closesQuotes (hfamily : family ∈ ["aria", "data"])
    (h : attributeVariant? family name = some cond) :
    IsAttributeSelector cond ↔ ∀ value, authoredValue? name = some value → ClosesQuotes value := by
  obtain ⟨key, hkey, ⟨value, hvalue, rfl⟩ | ⟨hvalue, rfl | rfl⟩⟩ := attributeVariant?_cases h
  · rw [isAttributeSelector_valued_iff (isAttributeName_append hfamily hkey), isString_quote_iff, hvalue]
    simp
  · simp [hvalue, IsAttributeSelector.bare (isAttributeName_append hfamily hkey) rfl]
  · rw [isAttributeSelector_valued_iff (isAttributeName_append hfamily hkey), isString_quote_iff, hvalue]
    simp only [reduceCtorEq, false_implies, implies_true, iff_true]
    decide

/-! ## The places of a condition -/

/-- What a marked ancestor or sibling makes of a condition. -/
theorem marked?_of_condition {mark combinator state variant cond : String} {name : Option String}
    (hnamed : named state = (variant, name)) (h : condition? variant = some cond) :
    marked? mark combinator state =
      some (ancestor ("." ++ mark ++ name.elim "" ("\\/" ++ escape ·) ++ cond ++ combinator)) := by
  rw [marked?, hnamed]
  dsimp only
  rw [h]
  cases name with
  | none => simp
  | some name => simp [String.append_assoc]

theorem has?_of_attribute (hfamily : family ∈ ["aria", "data"]) (h : condition? (family ++ "-" ++ name) = some cond) :
    has? (family ++ "-" ++ name) = some (condition (":has(" ++ cond ++ ")")) := by
  rw [has?, h, bracketed?, Text.enclosed?, (attribute_apart hfamily name).2.2]
  rfl

theorem not?_of_attribute {theme : Theme} (hfamily : family ∈ ["aria", "data"])
    (h : condition? (family ++ "-" ++ name) = some cond) (hfree : theme.breakpoint? (family ++ "-" ++ name) = none) :
    not? theme (family ++ "-" ++ name) = some (condition (":not(" ++ cond ++ ")")) := by
  obtain ⟨-, hmedia, -⟩ := attribute_apart hfamily name
  have hdark : (family ++ "-" ++ name == "dark") = false := by
    rw [beq_eq_false_iff_ne]
    intro heq
    rw [heq] at hmedia
    cases hmedia
  rw [not?, hdark, hmedia, hfree, h]
  rfl

/-- **Attributes close their quotes exactly if their authors do.** The condition of an `aria` or `data` attribute has
an identifier for a name, and it is a well-formed attribute selector exactly if the value between the brackets, where
there is one, makes a string. The same condition stands for the element itself, behind `has-`, behind `not-` unless a
breakpoint has the name, and on marked ancestors and siblings. -/
theorem attribute_conditions_close_their_quotes {variant : String} (hfamily : family ∈ ["aria", "data"])
    (hvariant : variant = family ++ "-" ++ name) (h : condition? variant = some cond) :
    (IsAttributeSelector cond ↔ ∀ value, authoredValue? name = some value → ClosesQuotes value) ∧
    (∃ key, isIdentifier key = true ∧
      (cond = "[" ++ (family ++ "-" ++ key) ++ "]" ∨ ∃ value, (authoredValue? name = some value ∨ value = "true") ∧
        cond = "[" ++ (family ++ "-" ++ key) ++ "=" ++ quote value ++ "]")) ∧
    ∀ theme : Theme,
      parse? theme variant = some (condition cond) ∧
      parse? theme ("has-" ++ variant) = some (condition (":has(" ++ cond ++ ")")) ∧
      (theme.breakpoint? variant = none →
        parse? theme ("not-" ++ variant) = some (condition (":not(" ++ cond ++ ")"))) ∧
      ∀ state mark, named state = (variant, mark) →
        parse? theme ("group-" ++ state) =
            some (ancestor (".group" ++ mark.elim "" ("\\/" ++ escape ·) ++ cond ++ " ")) ∧
          parse? theme ("peer-" ++ state) =
            some (ancestor (".peer" ++ mark.elim "" ("\\/" ++ escape ·) ++ cond ++ " ~ ")) := by
  subst hvariant
  have hvalue : attributeVariant? family name = some cond := by
    rwa [condition?_of_attribute hfamily] at h
  refine ⟨isAttributeSelector_iff_closesQuotes hfamily hvalue, ?_, fun theme => ?_⟩
  · obtain ⟨key, hkey, ⟨value, hauthored, hcond⟩ | ⟨-, hcond | hcond⟩⟩ := attributeVariant?_cases hvalue
    · exact ⟨key, hkey, .inr ⟨value, .inl hauthored, hcond⟩⟩
    · exact ⟨key, hkey, .inl hcond⟩
    · exact ⟨key, hkey, .inr ⟨"true", .inr rfl, hcond⟩⟩
  · have hhas : ("has-", has?) ∈ readers theme := by simp [readers]
    have hgroup : ("group-", marked? "group" " ") ∈ readers theme := by simp [readers]
    have hpeer : ("peer-", marked? "peer" " ~ ") ∈ readers theme := by simp [readers]
    refine ⟨parse?_of_attribute hfamily h, ?_, fun hfree => ?_, fun state mark hnamed => ⟨?_, ?_⟩⟩
    · rw [parse?_of_mem_readers hhas, has?_of_attribute hfamily h]
    · rw [parse?_of_not (Text.after?_eq_some_iff.2 rfl), not?_of_attribute hfamily h hfree]
    · have hclass : "." ++ "group" = ".group" := by decide
      rw [parse?_of_mem_readers hgroup, marked?_of_condition hnamed h, hclass]
    · have hclass : "." ++ "peer" = ".peer" := by decide
      rw [parse?_of_mem_readers hpeer, marked?_of_condition hnamed h, hclass]

/-- A state in single quotes makes a well-formed selector. -/
theorem data_state_closes_its_quotes :
    condition? "data-[state='open']" = some "[data-state='open']" ∧ IsAttributeSelector "[data-state='open']" ∧
      parse? Theme.empty "group-data-[state='open']/menu" =
        some (ancestor ".group\\/menu[data-state='open'] ") := by
  have hcond : condition? "data-[state='open']" = some "[data-state='open']" := by decide
  have hname : "data-[state='open']" = "data" ++ "-" ++ "[state='open']" := by decide
  have hvalue : authoredValue? "[state='open']" = some "'open'" := by decide
  obtain ⟨hclosed, -, hplaces⟩ := attribute_conditions_close_their_quotes (by simp) hname hcond
  refine ⟨hcond, hclosed.2 fun value h => ?_, ?_⟩
  · obtain rfl := Option.some.inj (hvalue.symm.trans h)
    decide
  · obtain ⟨hgroup, -⟩ := (hplaces Theme.empty).2.2.2 "data-[state='open']/menu" (some "menu") (by decide)
    exact hgroup

/-- **A quote in front is taken for two.** A value that begins with a quote is not put in quotes, even if it does not
end with one, and what it makes is no attribute selector. Nor is what a value makes that holds the quote it is put
in. -/
theorem open_quote_is_not_closed :
    condition? "data-[k='abc]" = some "[data-k='abc]" ∧ ¬ IsAttributeSelector "[data-k='abc]" ∧
      condition? "data-[k=a\"b]" = some "[data-k=\"a\"b\"]" ∧ ¬ IsAttributeSelector "[data-k=\"a\"b\"]" := by
  have hname : IsAttributeName "data-k" := ⟨"data", by simp, "k", by decide, by decide⟩
  have hstring (text : String) : IsAttributeSelector ("[" ++ "data-k" ++ "=" ++ text ++ "]") → IsString text :=
    (isAttributeSelector_valued_iff hname).1
  refine ⟨by decide, fun h => ?_, by decide, fun h => ?_⟩
  · exact absurd (hstring "'abc" h) (by decide)
  · exact absurd (hstring "\"a\"b\"" h) (by decide)

end AtomicCss.Variant
