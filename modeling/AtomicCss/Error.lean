/-!
# What can go wrong

Generating CSS never fails: an unknown class is dropped. What can fail is reading: theme files,
component directories, input files, and the command line. An error says which of these failed and why;
its wording stands in `Error.message` and nowhere else.
-/

namespace AtomicCss

/-- Why a file could not be read. -/
inductive ReadFault where
  | notFound
  | isDirectory
  /-- A part of the path in front of the last one is a file. -/
  | notDirectory
  | notText
  /-- Another failure, in the words of the operating system. -/
  | other (message : String)
  deriving DecidableEq, Repr, Inhabited

/-- Why an entry of a theme is rejected. -/
inductive ValueFault where
  | badKey
  | blankValue
  /-- The value holds a character that ends a declaration or a block. -/
  | unsafeValue
  deriving DecidableEq, Repr, Inhabited

/-- Why a command line is rejected. -/
inductive UsageFault where
  /-- An option that takes a value is the last argument. -/
  | missingValue (option : String)
  /-- An argument looks like an option and is none. -/
  | unknownOption (option : String)
  /-- There is neither a class nor a file to compile. -/
  | nothingToCompile
  deriving DecidableEq, Repr, Inhabited

/-- What can go wrong while inputs are read. -/
inductive Error where
  | unreadable (path : String) (fault : ReadFault)
  /-- A theme file is no YAML document or does not have the shape of a theme. -/
  | malformedTheme
  /-- An entry of a theme is rejected. -/
  | invalidValue (category key : String) (fault : ValueFault)
  /-- The component directory is no directory. -/
  | notComponentDirectory (path : String)
  | usage (fault : UsageFault)
  deriving DecidableEq, Repr, Inhabited

/-- The wording of a failure to read. -/
def ReadFault.message : ReadFault → String
  | notFound => "No such file or directory (os error 2)"
  | isDirectory => "Is a directory (os error 21)"
  | notDirectory => "Not a directory (os error 20)"
  | notText => "stream did not contain valid UTF-8"
  | other message => message

/-- The wording of a rejected theme entry. -/
def ValueFault.message : ValueFault → String
  | badKey => "key must contain only letters, digits, '-' or '_'"
  | blankValue => "value is empty"
  | unsafeValue => "value must not contain ';', '\x7b' or '\x7d'"

/-- The wording of a rejected command line. -/
def UsageFault.message : UsageFault → String
  | missingValue option => option ++ " needs a value"
  | unknownOption option => "unknown option '" ++ option ++ "'"
  | nothingToCompile => "no input files or --classes given"

def Error.message : Error → String
  | unreadable path fault => "Failed to read '" ++ path ++ "': " ++ fault.message
  | malformedTheme => "Theme parse error: the document is not a theme"
  | invalidValue category key fault =>
    "Invalid theme value for '" ++ category ++ "." ++ key ++ "': " ++ fault.message
  | notComponentDirectory path =>
    "Invalid component directory '" ++ path ++ "': not a directory"
  | usage fault => "Usage error: " ++ fault.message

end AtomicCss
