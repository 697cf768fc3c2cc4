import AtomicCss.Error
import AtomicCss.Text.Blank
import AtomicCss.Text.Identifier
import AtomicCss.Theme.Basic

/-!
# Checking a theme

Theme entries are written into CSS, so a key must be an identifier and a value must hold something and
must not be able to end its declaration. A theme is checked entry by entry in a fixed order, and the
first entry at fault is the answer.

* `valueFault?` — what is wrong with one entry;
* `Theme.checked` — the entries in the order in which they are checked;
* `Theme.validate` — the error of the first entry at fault;
* `Theme.validate_eq_ok_iff` — a theme passes exactly when no entry is at fault.
-/

namespace AtomicCss

/-- What is wrong with a theme entry, if anything: the key is looked at first, then whether the value is
blank, then whether it could end its declaration. -/
def valueFault? (key value : String) : Option ValueFault :=
  if !Text.isIdentifier key then some .badKey
  else if Text.isAllBlank value then some .blankValue
  else if Text.breaksOut value then some .unsafeValue
  else none

/-- An entry of a theme as it is checked. -/
structure Theme.Entry where
  /-- The category named in the message. -/
  category : String
  key : String
  value : String
  deriving DecidableEq, Repr, Inhabited

namespace Theme

/-- The entries of a theme in the order in which they are checked: the plain categories, the type scale
(size before line height), the spacing unit. -/
def checked (theme : Theme) : List Entry :=
  Category.all.flatMap (fun category =>
      (theme.scale category).entries.map fun (key, value) => ⟨category.name, key, value⟩) ++
    theme.text.entries.flatMap (fun (key, entry) =>
      [⟨"text", key, entry.size⟩, ⟨"text", key, entry.lineHeight⟩]) ++
    theme.spacing.toList.map fun value => ⟨"spacing", "spacing", value⟩

/-- The error of an entry at fault. -/
def Entry.error? (entry : Entry) : Option Error :=
  (valueFault? entry.key entry.value).map (Error.invalidValue entry.category entry.key)

/-- The error of the first entry at fault, in checking order. -/
def fault? (theme : Theme) : Option Error :=
  theme.checked.findSome? Entry.error?

/-- Accepts a theme in which no entry is at fault. -/
def validate (theme : Theme) : Except Error Unit :=
  match theme.fault? with
  | some error => .error error
  | none => .ok ()

/-- A theme passes exactly when no entry is at fault. -/
theorem validate_eq_ok_iff (theme : Theme) :
    theme.validate = .ok () ↔ ∀ entry ∈ theme.checked, valueFault? entry.key entry.value = none := by
  unfold validate fault?
  split
  · rename_i error h
    obtain ⟨entry, hmem, hsome⟩ := List.exists_of_findSome?_eq_some h
    refine ⟨fun hok => absurd hok (by simp), fun hall => ?_⟩
    simp [Entry.error?, hall entry hmem] at hsome
  · rename_i h
    refine ⟨fun _ entry hmem => ?_, fun _ => rfl⟩
    have hnone := List.findSome?_eq_none_iff.1 h entry hmem
    simpa [Entry.error?] using hnone

end Theme

end AtomicCss
