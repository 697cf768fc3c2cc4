import AtomicCss.Css.Rule
import AtomicCss.Proofs.Text.Delimiter

/-!
# Declarations that stay inside

A declaration is written as `name: value;` between the braces of a rule. It stays inside as long as its name
is an identifier and its value holds no semicolon and no brace; the same goes for every property of an
`@supports` block.

## The architecture

* **`Declaration.IsContained`** — a declaration stays inside.
* **`isContained_each`**, **`isContained_ofPairs`** — the two ways in which declarations are listed.
* **`isContained_important`** — marking a value as important does not let it out.
-/

namespace AtomicCss.Declaration

open Text (isIdentifier breaksOut)

/-- The names are identifiers, and neither the values nor a condition hold a delimiter. -/
def IsContained : Declaration → Prop
  | property name value => isIdentifier name = true ∧ breaksOut value = false
  | supports condition properties =>
    breaksOut condition = false ∧ ∀ p ∈ properties, isIdentifier p.1 = true ∧ breaksOut p.2 = false

theorem isContained_property {name value : String} :
    (property name value).IsContained ↔ isIdentifier name = true ∧ breaksOut value = false :=
  Iff.rfl

/-- What a declaration that stays inside says of each of its properties. -/
theorem IsContained.of_mem {declaration : Declaration} (h : declaration.IsContained)
    {p : String × String} (hp : p ∈ declaration.properties) :
    isIdentifier p.1 = true ∧ breaksOut p.2 = false := by
  cases declaration with
  | property name value =>
    obtain rfl := List.mem_singleton.1 hp
    exact h
  | supports condition properties => exact h.2 p hp

theorem isContained_each {names : List String} {value : String}
    (hnames : ∀ name ∈ names, isIdentifier name = true) (hvalue : breaksOut value = false) :
    ∀ d ∈ each names value, d.IsContained := by
  intro d hd
  obtain ⟨name, hname, rfl⟩ := List.mem_map.1 hd
  exact isContained_property.2 ⟨hnames name hname, hvalue⟩

theorem isContained_ofPairs {pairs : List (String × String)}
    (h : ∀ p ∈ pairs, isIdentifier p.1 = true ∧ breaksOut p.2 = false) :
    ∀ d ∈ ofPairs pairs, d.IsContained := by
  intro d hd
  obtain ⟨⟨name, value⟩, hp, rfl⟩ := List.mem_map.1 hd
  exact isContained_property.2 (h _ hp)

/-- The mark of an important value holds no delimiter. -/
@[simp] theorem breaksOut_markImportant (value : String) :
    breaksOut (markImportant value) = breaksOut value := by
  have hmark : breaksOut " !important" = false := by decide +kernel
  rw [markImportant, Text.breaksOut_append, hmark, Bool.or_false]

/-- **Marking the values as important lets nothing out.** -/
theorem isContained_important {declaration : Declaration} (h : declaration.IsContained) :
    declaration.important.IsContained := by
  cases declaration with
  | property name value =>
    obtain ⟨hname, hvalue⟩ := isContained_property.1 h
    exact isContained_property.2 ⟨hname, by rwa [breaksOut_markImportant]⟩
  | supports condition properties =>
    refine ⟨h.1, fun p hp => ?_⟩
    obtain ⟨⟨name, value⟩, hmem, rfl⟩ := List.mem_map.1 hp
    obtain ⟨hname, hvalue⟩ := h.2 _ hmem
    exact ⟨hname, by rwa [breaksOut_markImportant]⟩

end AtomicCss.Declaration
