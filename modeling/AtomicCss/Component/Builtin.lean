import AtomicCss.Css.Rule

/-!
# Built-in components

Six components come with the compiler: buttons, cards, dialogs, badges, messages and text fields. Their
rules refer to the theme and are written one a line.

* `builtins` — the names of the components with their rules, in order.
-/

namespace AtomicCss.Component

def btn : List FixedRule :=
  [⟨".btn", [("display", "inline-flex"), ("align-items", "center"), ("justify-content", "center"),
      ("gap", "calc(var(--spacing) * 2)"),
      ("padding", "calc(var(--spacing) * 2) calc(var(--spacing) * 4)"),
      ("border-radius", "var(--radius-md)"), ("font-weight", "var(--font-weight-semibold)"),
      ("cursor", "pointer"), ("background-color", "var(--color-neutral)"),
      ("color", "var(--color-neutral-content)"),
      ("transition", "background-color 150ms, color 150ms")]⟩,
   ⟨".btn:disabled", [("opacity", "50%"), ("cursor", "not-allowed")]⟩,
   ⟨".btn-primary", [("background-color", "var(--color-primary)"),
      ("color", "var(--color-primary-content)")]⟩,
   ⟨".btn-secondary", [("background-color", "var(--color-secondary)"),
      ("color", "var(--color-secondary-content)")]⟩,
   ⟨".btn-ghost", [("background-color", "transparent"), ("color", "inherit")]⟩,
   ⟨".btn-sm", [("padding", "calc(var(--spacing) * 1) calc(var(--spacing) * 3)"),
      ("font-size", "var(--text-sm)")]⟩,
   ⟨".btn-lg", [("padding", "calc(var(--spacing) * 3) calc(var(--spacing) * 6)"),
      ("font-size", "var(--text-lg)")]⟩]

def card : List FixedRule :=
  [⟨".card", [("display", "flex"), ("flex-direction", "column"),
      ("border-radius", "var(--radius-lg)"), ("background-color", "var(--color-base-100)"),
      ("box-shadow", "var(--shadow-sm)"), ("overflow", "hidden")]⟩,
   ⟨".card-body", [("display", "flex"), ("flex-direction", "column"),
      ("gap", "calc(var(--spacing) * 2)"), ("padding", "calc(var(--spacing) * 6)")]⟩,
   ⟨".card-title", [("font-size", "var(--text-lg)"),
      ("font-weight", "var(--font-weight-semibold)")]⟩,
   ⟨".card-actions", [("display", "flex"), ("justify-content", "flex-end"),
      ("gap", "calc(var(--spacing) * 2)")]⟩]

/-- Dialogs in front of the page. -/
def modal : List FixedRule :=
  [⟨".modal", [("position", "fixed"), ("inset", "0"), ("z-index", "50"), ("display", "none"),
      ("align-items", "center"), ("justify-content", "center"),
      ("background-color", "color-mix(in oklab, var(--color-black) 50%, transparent)")]⟩,
   ⟨".modal[open], .modal-open", [("display", "flex")]⟩,
   ⟨".modal-box", [("width", "100%"), ("max-width", "var(--container-lg)"), ("max-height", "90vh"),
      ("overflow-y", "auto"), ("padding", "calc(var(--spacing) * 6)"),
      ("border-radius", "var(--radius-xl)"), ("background-color", "var(--color-base-100)"),
      ("box-shadow", "var(--shadow-xl)")]⟩,
   ⟨".modal-action", [("display", "flex"), ("justify-content", "flex-end"),
      ("gap", "calc(var(--spacing) * 2)"), ("margin-top", "calc(var(--spacing) * 6)")]⟩]

def badge : List FixedRule :=
  [⟨".badge", [("display", "inline-flex"), ("align-items", "center"),
      ("padding", "0 calc(var(--spacing) * 2)"), ("border-radius", "calc(infinity * 1px)"),
      ("font-size", "var(--text-xs)"), ("font-weight", "var(--font-weight-medium)"),
      ("background-color", "var(--color-base-200)"), ("color", "var(--color-base-content)")]⟩,
   ⟨".badge-primary", [("background-color", "var(--color-primary)"),
      ("color", "var(--color-primary-content)")]⟩,
   ⟨".badge-outline", [("background-color", "transparent"), ("border", "1px solid currentColor")]⟩]

def alert : List FixedRule :=
  [⟨".alert", [("display", "flex"), ("align-items", "center"), ("gap", "calc(var(--spacing) * 3)"),
      ("padding", "calc(var(--spacing) * 4)"), ("border-radius", "var(--radius-lg)"),
      ("background-color", "var(--color-base-200)"), ("color", "var(--color-base-content)")]⟩,
   ⟨".alert-info", [("background-color", "var(--color-info)"),
      ("color", "var(--color-info-content)")]⟩,
   ⟨".alert-success", [("background-color", "var(--color-success)"),
      ("color", "var(--color-success-content)")]⟩,
   ⟨".alert-warning", [("background-color", "var(--color-warning)"),
      ("color", "var(--color-warning-content)")]⟩,
   ⟨".alert-error", [("background-color", "var(--color-error)"),
      ("color", "var(--color-error-content)")]⟩]

def input : List FixedRule :=
  [⟨".input", [("display", "block"), ("width", "100%"),
      ("padding", "calc(var(--spacing) * 2) calc(var(--spacing) * 3)"),
      ("border", "1px solid var(--color-base-300)"), ("border-radius", "var(--radius-md)"),
      ("background-color", "var(--color-base-100)"), ("color", "var(--color-base-content)")]⟩,
   ⟨".input:focus", [("outline", "2px solid var(--color-primary)"), ("outline-offset", "2px")]⟩,
   ⟨".input-error", [("border-color", "var(--color-error)")]⟩]

def builtins : List (String × List FixedRule) :=
  [("btn", btn), ("card", card), ("modal", modal), ("badge", badge), ("alert", alert),
   ("input", input)]

end AtomicCss.Component
