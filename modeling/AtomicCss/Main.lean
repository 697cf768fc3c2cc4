import AtomicCss.CommandLine

/-!
# The program

The outer layer of the command line: it reads what the arguments name into an environment, runs, and
prints the report. It decides nothing.

* `CommandLine.environment` — everything that the options name, read;
* `main` — the program.
-/

namespace AtomicCss.CommandLine

/-! ## Reading -/

/-- Why the operating system refused to read. -/
def faultOf : IO.Error → ReadFault
  | .noFileOrDirectory .. => .notFound
  | .inappropriateType _ code _ => if code = 20 then .notDirectory else .isDirectory
  | error => .other (toString error)

def decode (bytes : ByteArray) : Except ReadFault String :=
  match String.fromUTF8? bytes with
  | some text => .ok text
  | none => .error .notText

/-- The text of a file, or why it cannot be read. -/
def readFile (path : String) : IO (Except ReadFault String) := do
  try
    return decode (← IO.FS.readBinFile path)
  catch error =>
    return .error (faultOf error)

/-- The bytes of a stream up to its end, behind those that are there already. -/
partial def readStream (stream : IO.FS.Stream) (bytes : ByteArray) : IO ByteArray := do
  let chunk ← stream.read 65536
  if chunk.isEmpty then return bytes else readStream stream (bytes ++ chunk)

/-- The text of standard input, or why it cannot be read. -/
def readInput : IO (Except ReadFault String) := do
  try
    return decode (← readStream (← IO.getStdin) .empty)
  catch error =>
    return .error (faultOf error)

/-- Whether an entry of a directory leads to a regular file. -/
def isRegular (entry : IO.FS.DirEntry) : IO Bool := do
  try
    return (← entry.path.metadata).type matches .file
  catch _ =>
    return false

/-- What stands in a directory, `none` if there is no such directory. -/
def readDirectory (directory : String) : IO (Option (List File)) := do
  try
    let path ← IO.FS.realPath directory
    let mut files := []
    for entry in ← path.readDir do
      let isRegular ← isRegular entry
      let text ← if isRegular then readFile (joinPath directory entry.fileName) else pure (.error .isDirectory)
      files := { name := entry.fileName, isRegular, text } :: files
    return some files
  catch _ =>
    return none

/-- Everything that the options name, read. -/
def environment (options : Options) : IO Environment := do
  let paths := options.theme.toList ++ options.files.filter (· != "-")
  let texts ← paths.mapM fun path => return (path, ← readFile path)
  let directories ← options.components.toList.mapM fun path => return (path, ← readDirectory path)
  let input ← if options.files.contains "-" then readInput else pure (.ok "")
  let files : FileSystem :=
    { read := fun path => (texts.lookup path).getD (.error .notFound)
      files? := fun path => (directories.lookup path).join }
  return { files, input, debug := ← IO.getEnv "UTILCSS_DEBUG" }

/-! ## Printing -/

/-- Prints a report; the result is the exit code. -/
def print (report : Report) : IO UInt32 := do
  for token in report.unresolved do
    IO.eprintln ("unresolved class: " ++ token)
  IO.eprint report.errors
  try
    (← IO.getStdout).putStr report.output
    (← IO.getStdout).flush
    return report.exitCode.toUInt32
  catch error =>
    IO.eprintln ("✗ failed to write output: " ++ toString error)
    return 1

end AtomicCss.CommandLine

open AtomicCss.CommandLine in
/-- Compiles the classes of the arguments and of markup files into a stylesheet. -/
def main (arguments : List String) : IO UInt32 := do
  print (run (← environment (wanted arguments)) arguments)
