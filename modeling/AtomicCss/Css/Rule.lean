import AtomicCss.Css.Declaration

/-!
# Utilities and rules

A `Utility` is what the catalog knows of a class name without variants: its declarations, what is
appended to the selector, and the animation it needs. A `Rule` is what one class token comes to in the
end: a selector, declarations, and the queries around them.
-/

namespace AtomicCss

/-- A selector and a body, as they stand on one line. -/
def ruleText (selector body : String) : String :=
  selector ++ " " ++ braced body

/-- A rule that does not depend on the classes in use. -/
structure FixedRule where
  selector : String
  properties : List (String × String)
  deriving DecidableEq, Repr, Inhabited

def FixedRule.text (rule : FixedRule) : String :=
  ruleText rule.selector (renderBody (Declaration.ofPairs rule.properties))

/-- What a class name stands for, variants apart. -/
structure Utility where
  declarations : List Declaration
  /-- What is appended to the class selector, such as a child combinator. -/
  suffix : Option String := none
  /-- The name of the built-in animation that the utility uses. -/
  keyframes : Option String := none
  deriving DecidableEq, Repr, Inhabited

/-- A media query and its place in the order of media blocks. -/
structure MediaQuery where
  query : String
  /-- Blocks are written in ascending order of priority. -/
  priority : Nat
  deriving DecidableEq, Repr, Inhabited

/-- What one class token comes to. -/
structure Rule where
  selector : String
  declarations : List Declaration
  /-- The media query around the rule. -/
  media : Option MediaQuery
  /-- The container query around the rule. -/
  container : Option String
  /-- The animation that the rule uses. -/
  keyframes : Option String
  deriving DecidableEq, Repr, Inhabited

namespace Rule

/-- The body of the rule on one line. -/
def body (rule : Rule) : String :=
  renderBody rule.declarations

/-- The rule on one line, without the queries around it. -/
def text (rule : Rule) : String :=
  ruleText rule.selector rule.body

end Rule

end AtomicCss
