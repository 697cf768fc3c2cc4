import AtomicCss.Stylesheet
import AtomicCss.Text.Case
import AtomicCss.Theme.Reading

/-!
# The command line

The program compiles the classes of its arguments and of markup files into one stylesheet. Everything it
does is a function of the arguments and of what it can read, so running it is one definition; printing the
report is all that is left outside.

* `Options.parse` — the options that arguments stand for;
* `Options.load` — reads what the options name: the theme first, then the components, then the markup;
* `run` — the report of a run.
-/

namespace AtomicCss.CommandLine

/-! ## Options -/

structure Options where
  theme : Option String := none
  components : Option String := none
  /-- Whether the base and theme layers are written too. -/
  base : Bool := false
  /-- The class tokens, list after list. -/
  classes : List String := []
  /-- The markup files in order; a dash stands for standard input. -/
  files : List String := []
  deriving DecidableEq, Repr, Inhabited

/-- Whether a character separates the tokens of a class list. -/
def isSeparator (c : Char) : Bool :=
  c == ',' || Text.isBlank c

namespace Options

/-- The options with a class list behind their class tokens. -/
def addClasses (options : Options) (list : String) : Options :=
  { options with classes := options.classes ++ Text.fields isSeparator list }

/-- The options with a markup file behind their files. -/
def addFile (options : Options) (file : String) : Options :=
  { options with files := options.files ++ [file] }

/-- Reads arguments into options. An option that takes a value takes the next argument, whatever that
looks like, and the last value counts; class lists and files add up. -/
def read (options : Options) : List String → Except UsageFault Options
  | [] => .ok options
  | argument :: rest =>
    if argument = "--theme" then
      match rest with
      | [] => .error (.missingValue argument)
      | value :: rest => read { options with theme := some value } rest
    else if argument = "--components" then
      match rest with
      | [] => .error (.missingValue argument)
      | value :: rest => read { options with components := some value } rest
    else if argument = "--classes" then
      match rest with
      | [] => .error (.missingValue argument)
      | value :: rest => read (options.addClasses value) rest
    else if argument = "--base" then read { options with base := true } rest
    else if Text.startsWith "--" argument then .error (.unknownOption argument)
    else read (options.addFile argument) rest

/-- The options that arguments stand for. There has to be something to compile. -/
def parse (arguments : List String) : Except UsageFault Options := do
  let options ← read {} arguments
  if options.files.isEmpty && options.classes.isEmpty then .error .nothingToCompile
  else .ok options

end Options

/-- Whether the arguments ask for the usage text, which any of them may do. -/
def asksForHelp (arguments : List String) : Bool :=
  arguments.any fun argument => argument == "-h" || argument == "--help"

/-- The options whose files a run reads: a request for help and a rejected command line read nothing. -/
def wanted (arguments : List String) : Options :=
  if asksForHelp arguments then {} else (Options.parse arguments).toOption.getD {}

def usage : String :=
  "Usage: utilcss [--theme FILE] [--components DIR] [--base] [--classes LIST] [FILE...]\n\n" ++
  "Reads HTML from each FILE (or stdin when FILE is \x60-\x60) and writes CSS to stdout.\n\n" ++
  "Options:\n" ++
  "  --theme FILE       YAML theme overrides merged onto the defaults\n" ++
  "  --components DIR   extra component fragments (*.css, named by file stem)\n" ++
  "  --base             also emit the theme and base layers\n" ++
  "  --classes LIST     class tokens to compile, comma or space separated\n" ++
  "  -h, --help         print this message\n\n" ++
  "Environment:\n" ++
  "  UTILCSS_DEBUG=1    log classes that resolve to nothing\n" ++
  "  RUST_LOG           tracing filter (overrides the default)"

/-! ## Reading -/

structure Environment where
  files : FileSystem
  /-- Standard input, or why it cannot be read. -/
  input : Except ReadFault String
  /-- The value of the debugging variable, if it is set. -/
  debug : Option String

namespace Environment

/-- Whether classes without a rule are reported. -/
def reportsUnresolved (environment : Environment) : Bool :=
  environment.debug.any fun value =>
    ["1", "true", "yes", "on"].contains (Text.asciiLower (Text.trim value))

/-- The text of an argument that names a markup file. Standard input is used up when it is read. -/
def readMarkup (environment : Environment) (inputUsed : Bool) (path : String) :
    Except Error String :=
  if path = "-" then
    if inputUsed then .ok "" else environment.input.mapError (Error.unreadable "<stdin>")
  else environment.files.readText path

/-- The texts of the markup files, in order. -/
def readAllMarkup (environment : Environment) (inputUsed : Bool) :
    List String → Except Error (List String)
  | [] => .ok []
  | path :: paths => do
    let text ← environment.readMarkup inputUsed path
    let texts ← environment.readAllMarkup (inputUsed || path == "-") paths
    return text :: texts

/-- The theme of a file, or else the default theme. -/
def readTheme (environment : Environment) : Option String → Except Error Theme
  | some path => do Theme.parse (← environment.files.readText path)
  | none => .ok .standard

/-- The components of a directory, or else the built-in ones. -/
def readLibrary (environment : Environment) : Option String → Except Error Library
  | some directory => Library.load environment.files directory
  | none => .ok Library.builtin

end Environment

/-- What is to be compiled, and with what. -/
structure Job where
  compiler : Compiler
  tokens : List String

namespace Options

/-- Reads what the options name: the theme first, then the components, then the markup. -/
def load (options : Options) (environment : Environment) : Except Error Job := do
  let theme ← environment.readTheme options.theme
  let library ← environment.readLibrary options.components
  let texts ← environment.readAllMarkup false options.files
  let compiler : Compiler := { catalog := Catalog.standard, theme, library }
  return { compiler, tokens := options.classes ++ texts.flatMap Markup.classes }

end Options

namespace Job

def stylesheet (job : Job) (base : Bool) : String :=
  if base then job.compiler.fullStylesheet (.classes job.tokens)
  else job.compiler.stylesheet (.classes job.tokens)

/-- The distinct tokens of a job that have no rule. -/
def unresolved (job : Job) : List String :=
  job.compiler.unresolved (Source.classes job.tokens).tokens

end Job

/-! ## Running -/

structure Report where
  failed : Bool
  output : String
  errors : String
  /-- The classes that are reported to have no rule. -/
  unresolved : List String
  deriving DecidableEq, Repr, Inhabited

namespace Report

/-- The report of a run that succeeds. -/
def success (output : String) (unresolved : List String) : Report :=
  { failed := false, output, errors := "", unresolved }

/-- What is written for an error; a rejected command line is followed by the usage text. -/
def errorText (error : Error) : String :=
  "✗ " ++ error.message ++ "\n" ++
    match error with
    | .usage _ => "\n" ++ usage ++ "\n"
    | _ => ""

/-- The report of a run that fails. -/
def failure (error : Error) : Report :=
  { failed := true, output := "", errors := errorText error, unresolved := [] }

def exitCode (report : Report) : Nat :=
  if report.failed then 1 else 0

end Report

/-- The report of a run without a request for help. -/
def compile (environment : Environment) (arguments : List String) : Except Error Report := do
  let options ← (Options.parse arguments).mapError Error.usage
  let job ← options.load environment
  let unresolved := if environment.reportsUnresolved then job.unresolved else []
  return .success (job.stylesheet options.base) unresolved

def run (environment : Environment) (arguments : List String) : Report :=
  if asksForHelp arguments then .success (usage ++ "\n") []
  else
    match compile environment arguments with
    | .ok report => report
    | .error error => .failure error

end AtomicCss.CommandLine
