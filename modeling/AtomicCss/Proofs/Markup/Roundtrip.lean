import AtomicCss.Proofs.Markup.Scan

/-!
# Markup that is written from class tokens

Elements are written with their class tokens in an attribute, between quotes of one kind and with a blank between each
two. Whatever the tokens look like, be it tags or class attributes, they are what is found in the markup: the search
comes to the attribute of each element, reads up to the quote that closes it, and comes to the next element.

* **`innerValues_text_append`** of an `Element` — one element, whatever stands behind it.
* **`classes_page`** — the tokens of a list of elements, each once and in order.
-/

namespace AtomicCss.Markup

open Text (isBlank)

theorem mem_or_of_mem_intercalate {α : Type} {sep : List α} {l : List (List α)} {x : α}
    (h : x ∈ sep.intercalate l) : x ∈ sep ∨ ∃ xs ∈ l, x ∈ xs := by
  induction l with
  | nil => cases h
  | cons xs l ih =>
    cases l with
    | nil => exact .inr ⟨xs, List.mem_cons_self, by rwa [List.intercalate_singleton] at h⟩
    | cons ys l =>
      rw [List.intercalate_cons_cons, List.mem_append, List.mem_append] at h
      rcases h with (h | h) | h
      · exact .inr ⟨xs, List.mem_cons_self, h⟩
      · exact .inl h
      · exact (ih h).imp_right fun ⟨zs, hzs, hx⟩ => ⟨zs, List.mem_cons_of_mem _ hzs, hx⟩

/-- An element as it is written: the quotes around its class list and the class tokens in it. -/
structure Element where
  quote : Char
  tokens : List String

namespace Element

/-- The quotes of an element are quotes, and its tokens are not empty and hold neither blanks nor that quote. -/
structure IsProper (e : Element) : Prop where
  isQuote : e.quote = '"' ∨ e.quote = '\''
  ne_empty : ∀ token ∈ e.tokens, token ≠ ""
  not_blank : ∀ token ∈ e.tokens, ∀ c ∈ token.toList, isBlank c = false
  not_quote : ∀ token ∈ e.tokens, e.quote ∉ token.toList

/-- Whether an element is proper, looked up character by character. -/
def check (e : Element) : Bool :=
  (e.quote == '"' || e.quote == '\'') && e.tokens.all fun token =>
    token != "" && token.toList.all fun c => !isBlank c && c != e.quote

theorem check_eq_true_iff {e : Element} : e.check = true ↔ e.IsProper := by
  simp only [check, Bool.and_eq_true, Bool.or_eq_true, beq_iff_eq, bne_iff_ne, List.all_eq_true, Bool.not_eq_true']
  constructor
  · rintro ⟨hquote, htokens⟩
    exact ⟨hquote, fun token htoken => (htokens token htoken).1,
      fun token htoken c hc => ((htokens token htoken).2 c hc).1,
      fun token htoken hmem => ((htokens token htoken).2 _ hmem).2 rfl⟩
  · intro h
    refine ⟨h.isQuote, fun token htoken => ⟨h.ne_empty token htoken, fun c hc => ?_⟩⟩
    refine ⟨h.not_blank token htoken c hc, ?_⟩
    rintro rfl
    exact h.not_quote token htoken hc

instance : DecidablePred IsProper :=
  fun _ => decidable_of_iff _ check_eq_true_iff

def classList (e : Element) : String :=
  " ".intercalate e.tokens

def text (e : Element) : String :=
  "<div class=" ++ String.singleton e.quote ++ e.classList ++ String.singleton e.quote ++ "></div>"

variable {e : Element}

theorem toList_classList (e : Element) : e.classList.toList = [' '].intercalate (e.tokens.map String.toList) :=
  String.toList_intercalate

theorem IsProper.words_classList (h : e.IsProper) : Text.words e.classList = e.tokens := by
  have hsplits := Text.splits_intercalate fun token htoken => ⟨h.ne_empty token htoken, h.not_blank token htoken⟩
  rw [← toList_classList, Text.splits_iff, String.ofList_toList] at hsplits
  exact hsplits

theorem IsProper.not_mem_classList (h : e.IsProper) : e.quote ∉ e.classList.toList := by
  intro hmem
  rw [toList_classList] at hmem
  rcases mem_or_of_mem_intercalate hmem with hspace | ⟨chars, hchars, hquote⟩
  · -- a quote is no blank
    have hblank : e.quote = ' ' := List.mem_singleton.1 hspace
    rcases h.isQuote with hq | hq <;> exact absurd (hq.symm.trans hblank) (by decide)
  · obtain ⟨token, htoken, rfl⟩ := List.mem_map.1 hchars
    exact h.not_quote token htoken hquote

def IsProper.attribute (h : e.IsProper) : Attribute where
  word := "class".toList
  before := []
  after := []
  quote := e.quote
  spelled := by decide
  blank_before := List.forall_mem_nil _
  blank_after := List.forall_mem_nil _
  isQuote := h.isQuote
  value := e.classList.toList
  closed := h.not_mem_classList

theorem IsProper.toList_text (h : e.IsProper) :
    e.text.toList = "<div".toList ++ ' ' :: (h.attribute.text ++ "></div>".toList) := by
  have hfront : "<div class=".toList = "<div".toList ++ ' ' :: ("class".toList ++ ['=']) := by decide
  have hattribute : h.attribute.text =
      "class".toList ++ '=' :: e.quote :: (e.classList.toList ++ [e.quote]) := rfl
  -- rewriting with the equation of `text` would evaluate the fixed texts, which takes long
  delta text
  rw [hattribute, String.toList_append, String.toList_append, String.toList_append, String.toList_append, hfront,
    String.toList_singleton]
  simp only [List.append_assoc, List.cons_append, List.nil_append]

/-- **Of an element its class list is found**, and the search goes on behind the element. -/
theorem IsProper.innerValues_text_append (h : e.IsProper) (cs : List Char) :
    innerValues (e.text.toList ++ cs) = e.classList.toList :: innerValues cs := by
  have hread : attribute? (h.attribute.text ++ ("></div>".toList ++ cs)) =
      some (e.classList.toList, "></div>".toList ++ cs) := attribute?_eq_some_iff.2 ⟨h.attribute, rfl, rfl⟩
  rw [h.toList_text, List.append_assoc, innerValues_inert_append (by decide), List.cons_append, List.append_assoc,
    innerValues_cons_of_attribute? (by decide) hread, innerValues_inert_append (by decide)]

end Element

/-- A list of elements one after the other. -/
def page (elements : List Element) : String :=
  String.join (elements.map Element.text)

variable {elements : List Element}

theorem toList_page_cons (e : Element) (elements : List Element) :
    (page (e :: elements)).toList = e.text.toList ++ (page elements).toList := by
  rw [page, page, List.map_cons, String.toList_join, String.toList_join, List.flatMap_cons]

/-- Induction on the elements, each of which is passed as a whole. -/
theorem innerValues_page (h : ∀ e ∈ elements, e.IsProper) :
    innerValues (page elements).toList = elements.map fun e => e.classList.toList := by
  induction elements with
  | nil => rw [page, List.map_nil, String.join_nil, String.toList_empty, innerValues, List.map_nil]
  | cons e elements ih =>
    obtain ⟨he, helements⟩ := List.forall_mem_cons.1 h
    rw [toList_page_cons, he.innerValues_text_append, ih helements, List.map_cons]

/-- A page begins with an angle bracket, so that no attribute stands at its very start. -/
theorem values_page (h : ∀ e ∈ elements, e.IsProper) :
    values (page elements).toList = innerValues (page elements).toList := by
  refine @valuesFrom_eq_innerValues true _ fun _ => ?_
  cases elements with
  | nil => rfl
  | cons e elements =>
    rw [toList_page_cons, (h e List.mem_cons_self).toList_text]
    exact attribute?_cons_eq_none (by decide) _

/-- **The class tokens of elements are found in their markup**, each once and in order, whatever else they hold. -/
theorem classes_page (h : ∀ e ∈ elements, e.IsProper) :
    classes (page elements) = (elements.flatMap Element.tokens).eraseDups := by
  rw [classes, distinct_eq_eraseDups, values_page h, innerValues_page h, List.flatMap_map]
  refine congrArg List.eraseDups (List.flatMap_congr fun e he => ?_)
  rw [String.ofList_toList, (h e he).words_classList]

/-- Tokens that look like tags and class attributes, and one that holds the quote of the other element. -/
theorem nested_markup_is_kept :
    let elements : List Element :=
      [⟨'"', ["<div", "class='x'>", "a"]⟩, ⟨'\'', []⟩, ⟨'\'', ["a", "class=\"y\"></div>"]⟩]
    (∀ e ∈ elements, e.IsProper) ∧
      classes (page elements) = ["<div", "class='x'>", "a", "class=\"y\"></div>"] := by
  intro elements
  have hproper : ∀ e ∈ elements, e.IsProper := by decide
  refine ⟨hproper, (classes_page hproper).trans ?_⟩
  decide

end AtomicCss.Markup
