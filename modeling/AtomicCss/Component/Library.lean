import AtomicCss.Component.Builtin
import AtomicCss.Files
import AtomicCss.Ordered.Map
import AtomicCss.Text.Cut

/-!
# Component libraries

A component is CSS written beforehand, which goes into the stylesheet when a class of the component is in
use. Its classes are its name and everything that continues the name with a dash; of several names that
fit, the longest one counts.

* `Library.builtin` — the library of the built-in components;
* `Library.load` — the built-in components together with the fragments of a directory;
* `Library.matchBase?` — the component that a base utility belongs to.
-/

namespace AtomicCss

/-- CSS fragments by component name, in insertion order. -/
abbrev Library := OrderedMap String String

namespace Library

/-- The text of a component, one rule a line. -/
def fragmentOf (rules : List FixedRule) : String :=
  String.join (rules.map fun rule => rule.text ++ "\n")

/-- The library of the built-in components. -/
def builtin : Library :=
  OrderedMap.ofList (Component.builtins.map fun (name, rules) => (name, fragmentOf rules))

/-! ## Matching -/

/-- Whether a base utility belongs to a component of some name. -/
def covers (name base : String) : Bool :=
  base == name || Text.startsWith (name ++ "-") base

/-- The longest text of a list, the first one among several. -/
def longest? : List String → Option String
  | [] => none
  | s :: rest =>
    match longest? rest with
    | some t => if t.length ≤ s.length then some s else some t
    | none => some s

/-- The component that a base utility belongs to: the longest name that covers it. -/
def matchBase? (library : Library) (base : String) : Option String :=
  longest? (library.keys.filter (covers · base))

/-! ## Directories -/

/-- The component name of a style file, which is its name without the extension. A name that consists of
the extension alone has none. -/
def stem? (fileName : String) : Option String :=
  (Text.before? ".css" fileName).filter (!·.isEmpty)

/-- A style file with its component name: a regular file with the extension. -/
def styleFile? (file : File) : Option (String × File) :=
  if file.isRegular then (stem? file.name).map fun stem => (stem, file) else none

/-- The style files of a directory with their component names, in the order of their file names. -/
def styleFiles (files : List File) : List (String × File) :=
  (files.mergeSort fun a b => decide (a.name ≤ b.name)).filterMap styleFile?

/-- A component with the text of its file; a failure is reported with the path of the file. -/
def readFragment (directory : String) (entry : String × File) : Except Error (String × String) :=
  match entry.2.text with
  | .ok text => .ok (entry.1, text)
  | .error fault => .error (.unreadable (joinPath directory entry.2.name) fault)

/-- The built-in components together with the fragments of the files of a directory. A file named like a
built-in component replaces it. -/
def ofFiles (directory : String) (files : List File) : Except Error Library :=
  ((styleFiles files).mapM (readFragment directory)).map builtin.extend

/-- The built-in components together with the fragments of a directory. -/
def load (system : FileSystem) (directory : String) : Except Error Library :=
  match system.files? directory with
  | some files => ofFiles directory files
  | none => .error (.notComponentDirectory directory)

/-! ## Small facts -/

/-- The longest text of a list is one of its texts, and no text of the list is longer. -/
theorem longest?_eq_some {l : List String} {s : String} (h : longest? l = some s) :
    s ∈ l ∧ ∀ t ∈ l, t.length ≤ s.length := by
  induction l generalizing s with
  | nil => cases h
  | cons a rest ih =>
    simp only [longest?] at h
    split at h
    · rename_i t ht
      obtain ⟨hm, hl⟩ := ih ht
      split at h
      · rename_i hle
        cases h
        refine ⟨List.mem_cons_self, fun u hu => ?_⟩
        rcases List.mem_cons.1 hu with rfl | hu
        · exact Nat.le_refl _
        · exact Nat.le_trans (hl u hu) hle
      · rename_i hle
        cases h
        refine ⟨List.mem_cons_of_mem _ hm, fun u hu => ?_⟩
        rcases List.mem_cons.1 hu with rfl | hu
        · omega
        · exact hl u hu
    · rename_i hn
      cases h
      cases rest with
      | nil => simp
      | cons b bs =>
        simp only [longest?] at hn
        split at hn
        · split at hn <;> cases hn
        · cases hn

end Library

end AtomicCss
