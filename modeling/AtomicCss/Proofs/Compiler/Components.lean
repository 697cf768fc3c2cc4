import AtomicCss.Proofs.Compiler.Redundancy
import AtomicCss.Proofs.Text.Delimiter

/-!
# The components of a page

A class asks for a component if its base is the name of the component or continues it with a dash, as `btn-primary`
continues `btn`. Names may continue one another, so that one base belongs to several of them; the longest one is
meant. It is unique: all names of a base are beginnings of it, and of two beginnings of the same length neither
is longer than the other.

## The architecture

* **`Library.Continues`**, **`Library.Owns`** — the component of a base, said without the search for it.
  `Library.matchBase?_eq_some_iff` says that the search finds it, and finds nothing else.
* **`Library.Selects`**, **`Library.firstSelecting`** — the same for a token, and the first token of a page that
  selects a name.
* **`Compiler.components_of_selected_names`** — the components of a sheet are those that the tokens select, in the
  order in which they are first selected. Neither the catalog nor the theme has a part in it.
-/

namespace AtomicCss

namespace Library

/-! ## The component of a base -/

/-- A base utility is the name of a component or continues it with a dash. -/
def Continues (name base : String) : Prop :=
  base = name ∨ ∃ rest, base = name ++ "-" ++ rest

/-- A base utility belongs to a name of the library and to no longer one. -/
structure Owns (library : Library) (base name : String) : Prop where
  mem : name ∈ library.keys
  continues : Continues name base
  longest : ∀ other ∈ library.keys, Continues other base → other.length ≤ name.length

variable {library : Library} {base name other : String} {names : List String}

theorem covers_iff : covers name base = true ↔ Continues name base := by
  rw [covers, Bool.or_eq_true, beq_iff_eq, Text.startsWith_iff]
  rfl

theorem Continues.isPrefix (h : Continues name base) : name.toList <+: base.toList := by
  rcases h with rfl | ⟨rest, rfl⟩
  · exact List.prefix_refl _
  · rw [String.append_assoc, String.toList_append]
    exact List.prefix_append _ _

/-- Two names of a base that are equally long are the same beginning of it. -/
theorem Continues.eq_of_length (h : Continues name base) (h' : Continues other base)
    (hlength : name.length = other.length) : name = other := by
  have hlength' : name.toList.length = other.toList.length := by
    rwa [String.length_toList, String.length_toList]
  have hbegins : name.toList <+: other.toList :=
    List.prefix_of_prefix_length_le h.isPrefix h'.isPrefix (Nat.le_of_eq hlength')
  exact String.toList_inj.1 (hbegins.eq_of_length hlength')

theorem Owns.unique (h : library.Owns base name) (h' : library.Owns base other) : name = other :=
  h.continues.eq_of_length h'.continues
    (Nat.le_antisymm (h'.longest name h.mem h.continues) (h.longest other h'.mem h'.continues))

theorem longest?_eq_none_iff : longest? names = none ↔ names = [] := by
  cases names with
  | nil => exact iff_of_true rfl rfl
  | cons s rest =>
    refine iff_of_false ?_ (List.cons_ne_nil _ _)
    rw [longest?]
    split
    · split <;> exact Option.some_ne_none _
    · exact Option.some_ne_none _

theorem owns_of_matchBase? (h : library.matchBase? base = some name) : library.Owns base name := by
  obtain ⟨hname, hlongest⟩ := longest?_eq_some h
  obtain ⟨hmem, hcovers⟩ := List.mem_filter.1 hname
  exact ⟨hmem, covers_iff.1 hcovers,
    fun other hother hcontinues => hlongest other (List.mem_filter.2 ⟨hother, covers_iff.2 hcontinues⟩)⟩

/-- **The search finds the name to which a base belongs.** -/
theorem matchBase?_eq_some_iff : library.matchBase? base = some name ↔ library.Owns base name := by
  refine ⟨owns_of_matchBase?, fun h => ?_⟩
  cases hfound : library.matchBase? base with
  | some found => rw [(owns_of_matchBase? hfound).unique h]
  | none =>
    -- the name itself is among those that are searched
    have hmem : name ∈ library.keys.filter (covers · base) :=
      List.mem_filter.2 ⟨h.mem, covers_iff.2 h.continues⟩
    rw [longest?_eq_none_iff.1 hfound] at hmem
    cases hmem

/-! ## The component of a token -/

/-- A token selects the component to which its base belongs, an important marker apart. -/
def Selects (library : Library) (token name : String) : Prop :=
  library.Owns (stripImportant (Token.parse token).base).1 name

instance (library : Library) (token name : String) : Decidable (library.Selects token name) :=
  decidable_of_iff _ matchBase?_eq_some_iff

/-- The index of the first token that selects a component. -/
def firstSelecting (library : Library) (tokens : List String) (name : String) : Nat :=
  tokens.findIdx fun token => decide (library.Selects token name)

end Library

namespace Compiler

variable {compiler : Compiler} {tokens : List String} {token name : String}

theorem component?_eq_some_iff : compiler.component? token = some name ↔ compiler.library.Selects token name :=
  Library.matchBase?_eq_some_iff

theorem componentNames_eq_distinct (compiler : Compiler) (tokens : List String) :
    compiler.componentNames tokens = distinct (tokens.filterMap compiler.component?) :=
  distinct_filterMap_distinct _ _

theorem mem_componentNames :
    name ∈ compiler.componentNames tokens ↔ ∃ token ∈ tokens, compiler.library.Selects token name := by
  rw [componentNames_eq_distinct, mem_distinct, List.mem_filterMap]
  simp only [component?_eq_some_iff]

theorem firstPlace_component? (compiler : Compiler) (tokens : List String) (name : String) :
    firstPlace compiler.component? tokens name = compiler.library.firstSelecting tokens name := by
  rw [firstPlace, Library.firstSelecting]
  simp only [component?_eq_some_iff]

theorem pairwise_firstSelecting (compiler : Compiler) (tokens : List String) :
    (compiler.componentNames tokens).Pairwise fun name name' =>
      compiler.library.firstSelecting tokens name < compiler.library.firstSelecting tokens name' := by
  rw [componentNames_eq_distinct]
  refine (pairwise_distinct_filterMap compiler.component? tokens).imp fun hlt => ?_
  rwa [firstPlace_component?, firstPlace_component?] at hlt

/-- Every name that is selected has a fragment. -/
theorem components_compile (compiler : Compiler) (tokens : List String) :
    (compiler.compile tokens).components.map some =
      (compiler.componentNames tokens).map compiler.library.get? := by
  have hsome (css : Option String) (h : css ∈ (compiler.componentNames tokens).map compiler.library.get?) :
      css.isSome = true := by
    obtain ⟨name, hname, rfl⟩ := List.mem_map.1 h
    obtain ⟨token, -, hselects⟩ := mem_componentNames.1 hname
    obtain ⟨css, hcss⟩ := OrderedMap.mem_keys_iff.1 hselects.mem
    exact Option.isSome_iff_exists.2 ⟨css, hcss⟩
  rw [compile, List.map_filterMap_some_eq_filter_map_isSome, List.filter_eq_self.2 hsome]

/-- **The components of a sheet are the fragments of the names that the tokens select**, each name once and in the
order in which it is first selected. The names are settled by the library and the tokens: whether a token has a rule,
which is up to the catalog and the theme, does not matter. -/
theorem components_of_selected_names (library : Library) (tokens : List String) :
    ∃ names : List String, names.Nodup ∧
      (∀ name, name ∈ names ↔ ∃ token ∈ tokens, library.Selects token name) ∧
      (names.Pairwise fun name name' =>
        library.firstSelecting tokens name < library.firstSelecting tokens name') ∧
      ∀ (catalog : Catalog) (theme : Theme),
        (Compiler.compile ⟨catalog, theme, library⟩ tokens).components.map some = names.map library.get? := by
  -- the names are the same for every compiler around the library
  obtain ⟨compiler, rfl⟩ : ∃ compiler : Compiler, compiler.library = library :=
    ⟨⟨.standard, .standard, library⟩, rfl⟩
  refine ⟨compiler.componentNames tokens, nodup_distinct _, fun name => mem_componentNames,
    compiler.pairwise_firstSelecting tokens, fun catalog theme => ?_⟩
  exact components_compile ⟨catalog, theme, compiler.library⟩ tokens

end Compiler

end AtomicCss
