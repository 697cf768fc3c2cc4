/-!
# Declarations

What a utility puts into a rule: properties with their values, and blocks of properties that apply only
where a browser supports a condition. The written form of a list of declarations is one line.

* `Declaration.text` — `name: value;`, or the block of an `@supports` condition;
* `renderBody` — declarations separated by single spaces;
* `Declaration.important` — every value marked `!important`.
-/

namespace AtomicCss

/-- A property with its value, or properties that depend on a supported condition. -/
inductive Declaration where
  /-- `name: value;` -/
  | property (name value : String)
  /-- A block of properties under an `@supports` condition. -/
  | supports (condition : String) (properties : List (String × String))
  deriving DecidableEq, Repr, Inhabited

/-- A text between braces, with a space inside each of them. -/
def braced (inner : String) : String :=
  "\x7b " ++ inner ++ " \x7d"

/-- One property as it stands in a rule. -/
def propertyText (name value : String) : String :=
  name ++ ": " ++ value ++ ";"

namespace Declaration

/-- The value marked `!important`. -/
def markImportant (value : String) : String :=
  value ++ " !important"

/-- The declaration with every value marked `!important`. -/
def important : Declaration → Declaration
  | property name value => property name (markImportant value)
  | supports condition properties =>
    supports condition (properties.map fun (name, value) => (name, markImportant value))

/-- The properties that a declaration sets, with their values. -/
def properties : Declaration → List (String × String)
  | property name value => [(name, value)]
  | supports _ properties => properties

/-- The written form of a declaration. A block without properties keeps one space inside. -/
def text : Declaration → String
  | property name value => propertyText name value
  | supports condition properties =>
    "@supports " ++ condition ++ " \x7b" ++
      String.join (properties.map fun (name, value) => " " ++ propertyText name value) ++ " \x7d"

/-- Properties with their values, as declarations. -/
def ofPairs (pairs : List (String × String)) : List Declaration :=
  pairs.map fun (name, value) => property name value

/-- Several properties that all have the same value. -/
def each (names : List String) (value : String) : List Declaration :=
  names.map fun name => property name value

end Declaration

/-- The body of a rule on one line: its declarations separated by single spaces. -/
def renderBody (declarations : List Declaration) : String :=
  " ".intercalate (declarations.map Declaration.text)

end AtomicCss
