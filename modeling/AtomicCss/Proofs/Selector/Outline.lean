import AtomicCss.Proofs.Compiler.Resolution
import AtomicCss.Proofs.Selector.Containment

/-!
# Selectors before their tokens

The variants of a token work on its class without reading it: they put text around it and copy it, and a template
may copy it many times over. So a selector can be written down before the token is known, with places left open
for its class. This module carries the variants out on such an outline and shows that filling the places
afterwards gives the same selector as starting from the class.

## The architecture

* **`Part`**, **`Part.fillAll`** — a text with places, and what it comes to when all places are filled alike.
  `intercalate_pieces` reads it as fixed pieces with the filling in between.
* **`Outline.apply`** — one variant applied to a draft that has places for the class. `Outline.fill_apply` is the
  step: applying and filling may change places. `Outline.fill_foldl` is the run.
* **`Outline.place_mem_foldl`** — the places do not get lost: a template copies what it is given at least once.
* **`Selector.class_stands_in_fixed_places`** — the selectors of all tokens behind the same variants at once.
-/

namespace AtomicCss

/-! ## Texts with places -/

/-- A part of a text: fixed, or a place for something that is not known yet. -/
inductive Part where
  | text (s : String)
  | place
  deriving DecidableEq, Repr

namespace Part

def fill (filling : String) : Part → String
  | text s => s
  | place => filling

/-- The text that parts come to when every place is filled alike. -/
def fillAll (filling : String) (parts : List Part) : String :=
  String.join (parts.map (fill filling))

/-- The fixed pieces around the places, of which there is one more than there are places. -/
def pieces : List Part → List String
  | [] => [""]
  | text s :: parts => (pieces parts).modifyHead (s ++ ·)
  | place :: parts => "" :: pieces parts

/-- Writes parts into every gap between texts. -/
def between (parts : List Part) (texts : List String) : List Part :=
  parts.intercalate (texts.map fun s => [text s])

variable (filling : String) (parts : List Part)

@[simp] theorem fillAll_nil : fillAll filling [] = "" := rfl

@[simp] theorem fillAll_cons (part : Part) :
    fillAll filling (part :: parts) = part.fill filling ++ fillAll filling parts := by
  rw [fillAll, List.map_cons, String.join_cons, fillAll]

@[simp] theorem fillAll_append (parts' : List Part) :
    fillAll filling (parts ++ parts') = fillAll filling parts ++ fillAll filling parts' := by
  rw [fillAll, List.map_append, String.join_append, fillAll, fillAll]

theorem length_pieces : (pieces parts).length = parts.count place + 1 := by
  induction parts with
  | nil => rfl
  | cons part parts ih =>
    cases part with
    | text s => simp [pieces, ih]
    | place => simp [pieces, ih]

/-- **A text with places is made of fixed pieces**, with the filling between any two of them. -/
theorem intercalate_pieces : filling.intercalate (pieces parts) = fillAll filling parts := by
  induction parts with
  | nil => rw [pieces, String.intercalate_singleton, fillAll_nil]
  | cons part parts ih =>
    -- there is a first piece, which a fixed text joins and a place cuts off
    have hlength := length_pieces parts
    cases hpieces : pieces parts with
    | nil => simp [hpieces] at hlength
    | cons first others =>
      rw [hpieces] at ih
      cases part with
      | text s =>
        rw [pieces, hpieces, List.modifyHead_cons, String.intercalate_cons_append, ih, fillAll_cons]
        rfl
      | place =>
        rw [pieces, hpieces, String.intercalate_cons_cons, ih, String.empty_append, fillAll_cons]
        rfl

theorem fillAll_between (texts : List String) :
    fillAll filling (between parts texts) = (fillAll filling parts).intercalate texts := by
  induction texts with
  | nil => rfl
  | cons s texts ih =>
    cases texts with
    | nil =>
      show fillAll filling [text s] = _
      rw [fillAll_cons, fillAll_nil, String.append_empty, String.intercalate_singleton]
      rfl
    | cons t texts =>
      show fillAll filling ([text s] ++ parts ++ between parts (t :: texts)) = _
      rw [fillAll_append, fillAll_append, ih, String.intercalate_cons_cons, fillAll_cons, fillAll_nil,
        String.append_empty]
      rfl

variable {parts} in
theorem place_mem_between {texts : List String} (h : place ∈ parts) (hgap : 2 ≤ texts.length) :
    place ∈ between parts texts := by
  obtain ⟨s, t, rest, rfl⟩ : ∃ s t rest, texts = s :: t :: rest := by
    match texts, hgap with
    | s :: t :: rest, _ => exact ⟨s, t, rest, rfl⟩
  show place ∈ [text s] ++ parts ++ between parts (t :: rest)
  exact List.mem_append_left _ (List.mem_append_right _ h)

variable {parts} in
theorem two_le_length_pieces (h : place ∈ parts) : 2 ≤ (pieces parts).length := by
  have hcount : 0 < parts.count place := List.count_pos_iff.2 h
  rw [length_pieces]
  omega

variable {parts} in
theorem fillAll_eq_append_of_mem (h : place ∈ parts) :
    ∃ front behind, fillAll filling parts = front ++ filling ++ behind := by
  obtain ⟨before, after, rfl⟩ := List.append_of_mem h
  refine ⟨fillAll filling before, fillAll filling after, ?_⟩
  rw [fillAll_append, fillAll_cons, String.append_assoc]
  rfl

end Part

/-! ## Drafts with places -/

/-- A draft in which the class of the token is left open. It can only stand in the compound: what goes in front
of it is known. -/
structure Outline where
  ancestors : String
  compound : List Part
  element : Option String
  media : Option MediaQuery
  container : Option String

namespace Outline

/-- The outline of a token without variants: a place for its class. -/
def start : Outline :=
  { ancestors := "", compound := [.place], element := none, media := none, container := none }

def subject (outline : Outline) : List Part :=
  .text outline.ancestors :: outline.compound

/-- Applies a variant without the class. -/
def apply (outline : Outline) : Variant → Outline
  | .element pseudo => { outline with element := some pseudo }
  | .media query => { outline with media := some query }
  | .container query => { outline with container := some query }
  | .condition text => { outline with compound := outline.compound ++ [.text text] }
  | .ancestor text => { outline with ancestors := outline.ancestors ++ text }
  | .children =>
    { outline with ancestors := "", compound := .text ":is(" :: outline.subject ++ [.text " > *)"] }
  | .template pieces => { outline with ancestors := "", compound := Part.between outline.subject pieces }
  | .ignored => outline

/-- The draft that an outline comes to with a class in its places. -/
def fill (outline : Outline) (cls : String) : Draft where
  ancestors := outline.ancestors
  compound := Part.fillAll cls outline.compound
  element := outline.element
  media := outline.media
  container := outline.container

/-- The parts of a finished selector: the subject, what the utility appends, the pseudo-element. -/
def finish (outline : Outline) (suffix : Option String) : List Part :=
  outline.subject ++ [.text (suffix.getD ""), .text (outline.element.getD "")]

variable (outline : Outline) (cls : String)

theorem fill_start (token : String) : start.fill ("." ++ escape token) = Draft.ofToken token := by
  have hcompound : Part.fillAll ("." ++ escape token) [.place] = "." ++ escape token :=
    (Part.fillAll_cons ..).trans String.append_empty
  rw [fill, start, hcompound, Draft.ofToken]

theorem subject_fill : (outline.fill cls).subject = Part.fillAll cls outline.subject := by
  rw [Outline.subject, Part.fillAll_cons]
  rfl

theorem selector_finish_fill (suffix : Option String) :
    ((outline.fill cls).finish suffix).selector = Part.fillAll cls (outline.finish suffix) := by
  show (outline.fill cls).subject ++ suffix.getD "" ++ outline.element.getD "" = _
  rw [subject_fill, Outline.finish, Part.fillAll_append, Part.fillAll_cons, Part.fillAll_cons,
    Part.fillAll_nil, String.append_empty, String.append_assoc]
  rfl

/-- **A variant does not read the class.** Applying it to the outline and filling the places gives what it makes
of the filled draft. One case for each effect. -/
theorem fill_apply (effect : Variant) : (outline.apply effect).fill cls = (outline.fill cls).apply effect := by
  cases effect with
  | element pseudo => rfl
  | media query => rfl
  | container query => rfl
  | ancestor text => rfl
  | ignored => rfl
  | condition text =>
    have hcompound : Part.fillAll cls (outline.compound ++ [.text text]) =
        Part.fillAll cls outline.compound ++ text := by
      rw [Part.fillAll_append, Part.fillAll_cons, Part.fillAll_nil, String.append_empty]
      rfl
    rw [fill, apply, hcompound]
    rfl
  | children =>
    -- the ancestors move inside the parentheses, in the outline as in the draft
    have hcompound : Part.fillAll cls (.text ":is(" :: outline.subject ++ [.text " > *)"]) =
        ":is(" ++ (outline.fill cls).subject ++ " > *)" := by
      rw [Part.fillAll_append, Part.fillAll_cons, Part.fillAll_cons, Part.fillAll_nil, String.append_empty,
        subject_fill]
      rfl
    rw [fill, apply, hcompound]
    rfl
  | template pieces =>
    have hcompound : Part.fillAll cls (Part.between outline.subject pieces) =
        (outline.fill cls).subject.intercalate pieces := by
      rw [Part.fillAll_between, subject_fill]
    rw [fill, apply, hcompound]
    rfl

theorem fill_foldl (effects : List Variant) :
    (effects.foldl apply outline).fill cls = effects.foldl Draft.apply (outline.fill cls) := by
  induction effects generalizing outline with
  | nil => rfl
  | cons effect effects ih => rw [List.foldl_cons, ih, fill_apply, List.foldl_cons]

variable {outline}

/-- A variant keeps a place for the class, a template because it has a place for the selector so far. -/
theorem place_mem_apply (h : .place ∈ outline.compound) {effect : Variant}
    (hplace : ∀ pieces, effect = .template pieces → 2 ≤ pieces.length) :
    .place ∈ (outline.apply effect).compound := by
  have hsubject : .place ∈ outline.subject := List.mem_cons_of_mem _ h
  cases effect with
  | element pseudo => exact h
  | media query => exact h
  | container query => exact h
  | ancestor text => exact h
  | ignored => exact h
  | condition text => exact List.mem_append_left _ h
  | children => exact List.mem_append_left _ (List.mem_cons_of_mem _ hsubject)
  | template pieces => exact Part.place_mem_between hsubject (hplace pieces rfl)

theorem place_mem_foldl {effects : List Variant}
    (hplace : ∀ pieces, .template pieces ∈ effects → 2 ≤ pieces.length) (h : .place ∈ outline.compound) :
    .place ∈ (effects.foldl apply outline).compound := by
  induction effects generalizing outline with
  | nil => exact h
  | cons effect effects ih =>
    refine ih (fun pieces hmem => hplace pieces (List.mem_cons_of_mem _ hmem)) (place_mem_apply h ?_)
    rintro pieces rfl
    exact hplace pieces List.mem_cons_self

end Outline

/-! ## Selectors of all tokens -/

namespace Selector

variable {theme : Theme} {variants : List String}

/-- What variants make of an outline they make of the class of every token. -/
theorem build?_eq_fillAll {effects : List Variant}
    (heffects : variants.mapM (Variant.parse? theme) = some effects) (token : String)
    (suffix : Option String) :
    build? theme token variants suffix =
      let outline := effects.foldl Outline.apply .start
      some ⟨Part.fillAll ("." ++ escape token) (outline.finish suffix), outline.media, outline.container⟩ := by
  rw [build?, heffects, Option.map_some, ← Outline.fill_start, ← Outline.fill_foldl]
  dsimp only
  rw [← Outline.selector_finish_fill]
  rfl

theorem place_mem_finish {effects : List Variant}
    (heffects : variants.mapM (Variant.parse? theme) = some effects) (suffix : Option String) :
    .place ∈ (effects.foldl Outline.apply .start).finish suffix := by
  have hplace : ∀ pieces, .template pieces ∈ effects → 2 ≤ pieces.length := by
    intro pieces hmem
    obtain ⟨variant, -, hparse⟩ := (mem_of_mapM heffects).1 hmem
    exact Variant.two_le_length_of_template hparse
  have hstart : Part.place ∈ Outline.start.compound := List.mem_cons_self
  exact List.mem_append_left _ (List.mem_cons_of_mem _ (Outline.place_mem_foldl hplace hstart))

/-- **The class of a token stands in fixed places of its selector.** Variants that some token accepts are accepted
by all. Then there are two or more pieces of text, the same for all tokens, and the selector of a token is these
pieces with its escaped class between any two of them; the queries are the same for all tokens too. So the
selector of a token that has a rule holds the class of the token. -/
theorem class_stands_in_fixed_places :
    (∀ (theme : Theme) (variants : List String) (suffix : Option String),
      (∀ token, build? theme token variants suffix = none) ∨
        ∃ pieces media container, 2 ≤ pieces.length ∧ ∀ token,
          build? theme token variants suffix =
            some ⟨("." ++ escape token).intercalate pieces, media, container⟩) ∧
    ∀ (compiler : Compiler) (token : String) (rule : Rule), compiler.resolve? token = some rule →
      ∃ front behind, rule.selector = front ++ ("." ++ escape token) ++ behind := by
  constructor
  · intro theme variants suffix
    cases heffects : variants.mapM (Variant.parse? theme) with
    | none =>
      left
      intro token
      rw [build?, heffects, Option.map_none]
    | some effects =>
      right
      have hplace := place_mem_finish heffects suffix
      let outline := effects.foldl Outline.apply .start
      refine ⟨Part.pieces (outline.finish suffix), outline.media, outline.container,
        Part.two_le_length_pieces hplace, fun token => ?_⟩
      rw [Part.intercalate_pieces]
      exact build?_eq_fillAll heffects token suffix
  · intro compiler token rule hrule
    obtain ⟨base, important, utility, -, -, hhead, -⟩ := Compiler.resolve?_eq_some hrule
    obtain ⟨effects, heffects, -⟩ := Option.map_eq_some_iff.1 hhead
    obtain ⟨front, behind, hfilled⟩ := Part.fillAll_eq_append_of_mem ("." ++ escape token)
      (place_mem_finish heffects utility.suffix)
    rw [build?_eq_fillAll heffects] at hhead
    have hselector := congrArg Selector.selector (Option.some.inj hhead)
    exact ⟨front, behind, hselector.symm.trans hfilled⟩

/-- The marked ancestor is copied with the class, and the ampersand in the class of the token is no place. -/
theorem flex_in_two_places :
    ∃ rule, Compiler.standard.resolve? "group-hover:[&_p,.x_&]:flex" = some rule ∧
      ∃ front behind, rule.selector = front ++ ("." ++ escape "group-hover:[&_p,.x_&]:flex") ++ behind := by
  have hparse : Token.parse "group-hover:[&_p,.x_&]:flex" = ⟨["group-hover", "[&_p,.x_&]"], "flex"⟩ := by
    decide
  have heffects : ["group-hover", "[&_p,.x_&]"].mapM (Variant.parse? Compiler.standard.theme) =
      some [.ancestor ".group:hover ", .template ["", " p,.x ", ""]] := by
    decide
  have hrule := Compiler.resolve?_flex_of_mapM Compiler.catalog_standard hparse heffects
  exact ⟨_, hrule, class_stands_in_fixed_places.2 _ _ _ hrule⟩

example : Part.pieces ((Outline.apply (.apply .start (.ancestor ".group:hover "))
    (.template ["", " p,.x ", ""])).finish none) = [".group:hover ", " p,.x .group:hover ", ""] := by
  decide

end Selector

end AtomicCss
