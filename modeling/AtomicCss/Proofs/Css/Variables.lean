import AtomicCss.Css.Declaration
import AtomicCss.Proofs.Text.Delimiter

/-!
# Custom properties that declarations depend on

Some utilities share custom properties: one of them sets `--tw-translate-x`, and another refers to it. A reference
without a fallback makes its whole declaration invalid where nobody has set the custom property. This module says which
custom properties a list of declarations refers to in this way, and which of them it does not set by itself.

## The architecture

* **`RefersTo`** — a reference without a fallback, anywhere in a value.
* **`references`**, **`mem_references_iff`** — all of them, found by reading the value once.
* **`IsUnset`**, **`unset`**, **`mem_unset_iff`** — those that the declarations do not set.
* **`references_eq_nil`**, **`references_append`** — texts without the letters of `var(--tw-` add no references.
* **`asciiUnset`**, **`unset_eq_asciiUnset`** — the same for fixed declarations, told from their bytes.
-/

namespace AtomicCss

open Text (isNameChar)

variable {value name : String} {cs : List Char}

/-! ## References -/

/-- A value refers to a custom property of the utilities and has nothing to fall back on. -/
def RefersTo (value name : String) : Prop :=
  (∀ c ∈ name.toList, isNameChar c = true) ∧ ∃ front back, value = front ++ "var(--tw-" ++ name ++ ")" ++ back

/-- The name of the reference that a list of characters begins with. -/
def referenceAt? (cs : List Char) : Option String :=
  (Text.dropStart? "var(--tw-".toList cs).bind fun rest =>
    if (rest.dropWhile isNameChar).head? = some ')' then some (String.ofList (rest.takeWhile isNameChar)) else none

/-- The names of all references in a list of characters. -/
def referencesIn : List Char → List String
  | [] => []
  | c :: cs => (referenceAt? (c :: cs)).toList ++ referencesIn cs

def references (value : String) : List String :=
  referencesIn value.toList

theorem referenceAt?_eq_some_iff : referenceAt? cs = some name ↔
    (∀ c ∈ name.toList, isNameChar c = true) ∧ ∃ back, cs = "var(--tw-".toList ++ (name.toList ++ ')' :: back) := by
  constructor
  · intro h
    obtain ⟨rest, hrest, h⟩ := Option.bind_eq_some_iff.1 h
    split at h
    · rename_i hclose
      obtain ⟨back, hback⟩ := List.head?_eq_some_iff.1 hclose
      obtain rfl := Option.some.inj h
      rw [String.toList_ofList]
      refine ⟨List.all_eq_true.1 List.all_takeWhile, back, ?_⟩
      rw [← hback, List.takeWhile_append_dropWhile]
      exact Text.dropStart?_eq_some_iff.1 hrest
    · cases h
  · rintro ⟨hname, back, rfl⟩
    have hclose : ¬ isNameChar ')' = true := by decide
    rw [referenceAt?, Text.dropStart?_eq_some_iff.2 rfl, Option.bind_some, List.dropWhile_append_of_pos hname,
      List.takeWhile_append_of_pos hname, List.dropWhile_cons_of_neg hclose, List.takeWhile_cons_of_neg hclose,
      List.append_nil, String.ofList_toList]
    rfl

theorem mem_referencesIn_iff : name ∈ referencesIn cs ↔ (∀ c ∈ name.toList, isNameChar c = true) ∧
    ∃ front back, cs = front ++ ("var(--tw-".toList ++ (name.toList ++ ')' :: back)) := by
  induction cs with
  | nil => simp [referencesIn]
  | cons c cs ih =>
    rw [referencesIn, List.mem_append, Option.mem_toList, referenceAt?_eq_some_iff, ih]
    constructor
    · rintro (⟨hname, back, hcs⟩ | ⟨hname, front, back, rfl⟩)
      · exact ⟨hname, [], back, hcs⟩
      · exact ⟨hname, c :: front, back, rfl⟩
    · rintro ⟨hname, front, back, hcs⟩
      cases front with
      | nil => exact .inl ⟨hname, back, hcs⟩
      | cons d front => exact .inr ⟨hname, front, back, (List.cons.inj hcs).2⟩

/-- **The references of a value are found.** -/
theorem mem_references_iff : name ∈ references value ↔ RefersTo value name := by
  rw [references, mem_referencesIn_iff, RefersTo]
  refine and_congr_right fun _ => ⟨?_, ?_⟩
  · rintro ⟨front, back, hvalue⟩
    exact ⟨String.ofList front, String.ofList back, String.toList_injective (by simp [hvalue])⟩
  · rintro ⟨front, back, rfl⟩
    exact ⟨front.toList, back.toList, by simp⟩

/-- Without one of its characters no reference is spelled. -/
theorem references_eq_nil {c : Char} (hc : c ∈ ['w', '(']) (h : c ∉ value.toList) : references value = [] := by
  rw [List.eq_nil_iff_forall_not_mem]
  intro name hname
  obtain ⟨-, front, back, rfl⟩ := mem_references_iff.1 hname
  rcases List.mem_pair.1 hc with rfl | rfl <;> exact h (by simp)

/-- What cannot begin a reference adds none. -/
theorem references_append {front back : String} (h : 'v' ∉ front.toList) :
    references (front ++ back) = references back := by
  rw [references, references, String.toList_append]
  generalize front.toList = cs at h
  induction cs with
  | nil => rfl
  | cons c cs ih =>
    obtain ⟨hc, hcs⟩ := not_or.1 (List.mem_cons.not.1 h)
    have hnone : referenceAt? (c :: (cs ++ back.toList)) = none := by
      rw [Option.eq_none_iff_forall_ne_some]
      intro name hname
      obtain ⟨-, rest, hrest⟩ := referenceAt?_eq_some_iff.1 hname
      exact hc (List.cons.inj hrest).1.symm
    rw [List.cons_append, referencesIn, hnone, Option.toList_none, List.nil_append, ih hcs]

/-! ## Declarations -/

section Declarations

variable {declarations : List Declaration}

/-- Every property that the declarations set, with its value. -/
def settings (declarations : List Declaration) : List (String × String) :=
  declarations.flatMap Declaration.properties

/-- A custom property that the declarations refer to without a fallback, and that they do not set. -/
def IsUnset (declarations : List Declaration) (name : String) : Prop :=
  (∃ p ∈ settings declarations, RefersTo p.2 name) ∧ "--tw-" ++ name ∉ (settings declarations).map Prod.fst

def unset (declarations : List Declaration) : List String :=
  ((settings declarations).flatMap fun p => references p.2).filter fun name =>
    !((settings declarations).map Prod.fst).contains ("--tw-" ++ name)

theorem mem_unset_iff : name ∈ unset declarations ↔ IsUnset declarations name := by
  simp only [unset, IsUnset, List.mem_filter, List.mem_flatMap, mem_references_iff, Bool.not_eq_true',
    ← Bool.not_eq_true, List.contains_iff_mem]

theorem unset_eq_nil (h : ∀ p ∈ settings declarations, references p.2 = []) : unset declarations = [] := by
  have hnone : (settings declarations).flatMap (fun p => references p.2) = [] := List.flatMap_eq_nil_iff.2 h
  rw [unset, hnone, List.filter_nil]

/-- Properties that are all set to a value without references. -/
theorem unset_each (names : List String) (h : references value = []) : unset (Declaration.each names value) = [] := by
  refine unset_eq_nil fun p hp => ?_
  obtain ⟨d, hd, hp⟩ := List.mem_flatMap.1 hp
  obtain ⟨property, -, rfl⟩ := List.mem_map.1 hd
  obtain rfl := List.mem_singleton.1 hp
  exact h

end Declarations

/-! ## Fixed texts -/

/-- The characters of a fixed text, if it is ASCII: its bytes. -/
def asciiChars (s : String) : List Char :=
  s.toUTF8.data.toList.map fun byte => Char.ofNat byte.toNat

theorem toList_eq_asciiChars {s : String} {p : Char → Bool} (h : Text.asciiAll p s = true) :
    s.toList = asciiChars s := by
  have hbytes : ∀ byte ∈ s.toUTF8.data.toList, byte.toNat < 128 := fun byte hbyte =>
    of_decide_eq_true (Bool.and_eq_true_iff.1 (List.all_eq_true.1 h byte hbyte)).1
  rw [Text.bytes_eq_flatMap] at hbytes
  rw [asciiChars, Text.bytes_eq_flatMap]
  generalize s.toList = cs at hbytes
  induction cs with
  | nil => rfl
  | cons c cs ih =>
    rw [List.flatMap_cons] at hbytes ⊢
    obtain ⟨hencode, hlt⟩ := Text.utf8EncodeChar_of_ascii fun byte hbyte => hbytes byte (List.mem_append_left _ hbyte)
    have hback : (UInt8.ofNat c.toNat).toNat = c.toNat := by
      simp
      omega
    rw [List.map_append, ← ih fun byte hbyte => hbytes byte (List.mem_append_right _ hbyte), hencode, List.map_singleton,
      hback, Char.ofNat_toNat]
    rfl

/-- The references of a fixed text. Most texts lack a letter and need not be read any further. -/
def asciiReferences (value : String) : List String :=
  if Text.asciiAll (fun c => c != 'w') value then [] else referencesIn (asciiChars value)

theorem references_eq_asciiReferences {p : Char → Bool} (h : Text.asciiAll p value = true) :
    references value = asciiReferences value := by
  unfold asciiReferences
  split
  · rename_i hletter
    refine references_eq_nil (c := 'w') (by decide) fun hmem => ?_
    exact absurd (List.all_eq_true.1 (Text.all_of_asciiAll hletter) _ hmem) (by decide)
  · rw [references, toList_eq_asciiChars h]

/-- What fixed declarations leave unset. -/
def asciiUnset (declarations : List Declaration) : List String :=
  ((settings declarations).flatMap fun p => asciiReferences p.2).filter fun name =>
    !((settings declarations).map Prod.fst).contains ("--tw-" ++ name)

theorem unset_eq_asciiUnset {declarations : List Declaration} {test : Char → Bool}
    (h : ∀ p ∈ settings declarations, Text.asciiAll test p.2 = true) :
    unset declarations = asciiUnset declarations := by
  have hreferences : (settings declarations).flatMap (fun p => references p.2) =
      (settings declarations).flatMap fun p => asciiReferences p.2 :=
    List.flatMap_congr fun p hp => references_eq_asciiReferences (h p hp)
  rw [unset, hreferences, asciiUnset]

end AtomicCss
