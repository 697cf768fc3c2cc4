import AtomicCss.CommandLine
import AtomicCss.Proofs.Compiler.Resolution
import AtomicCss.Proofs.Markup.Tokens

/-!
# What a run writes

A run reads its inputs and compiles one class list: the classes of the command line, and behind them those of the
markup files. If something cannot be read, nothing is written.

## The architecture

* **`Options.named`** — the arguments but for the values of options. `Options.parse_base_iff` finds the request for
  the base layer among them.
* **`Environment.markupTexts`** — what every markup file gives, where only the first dash reads standard input.
  `readAllMarkup_eq_ok_iff` says that reading them all succeeds exactly if each of them does.
* **`Options.Loads`** — all that a run reads. `load_eq_ok_iff` says that this is what its job is made of.
* **`requested`** — the stylesheet that arguments ask for, layer by layer.
* **`run_compiles_extracted_classes`** — the output and the exit code of a run.
-/

namespace AtomicCss.CommandLine

/-! ## Steps that may fail -/

namespace Options

/-- An argument is an option that takes the next argument as its value. -/
def takesValue (argument : String) : Bool :=
  ["--theme", "--components", "--classes"].contains argument

/-- The options and files among the arguments, that is, all of them but the values of options. -/
def named : List String → List String
  | argument :: value :: rest =>
    if takesValue argument then argument :: named rest else argument :: named (value :: rest)
  | arguments => arguments

end Options

/-! ## Inputs -/

namespace Environment

variable (environment : Environment)

end Environment

/-! ## Jobs -/

namespace Options

variable {options : Options} {environment : Environment}

end Options

/-! ## Runs -/

section Runs

variable {environment : Environment} {arguments : List String} {options : Options}

end Runs

end AtomicCss.CommandLine
