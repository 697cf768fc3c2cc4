import AtomicCss.Error

/-!
# Files

What the compiler reads, seen from outside: texts by path and the files of a directory. Reading a text may
fail, and the reason is part of the answer, so everything behind this view is a function.

* `FileSystem` — the view;
* `joinPath` — the path of a file in a directory.
-/

namespace AtomicCss

/-- A file of a directory: its name, what it is, and its text or why that cannot be read. -/
structure File where
  name : String
  /-- Whether it is a regular file, and not a directory or a device. -/
  isRegular : Bool
  /-- The text, or why it cannot be read. -/
  text : Except ReadFault String

structure FileSystem where
  /-- The text at a path, or why it cannot be read. -/
  read : String → Except ReadFault String
  /-- What stands directly in a directory, in any order; `none` if there is no such directory. -/
  files? : String → Option (List File)

namespace FileSystem

/-- The text at a path; a failure is reported with the path. -/
def readText (files : FileSystem) (path : String) : Except Error String :=
  (files.read path).mapError (Error.unreadable path)

end FileSystem

/-- The path of a file in a directory: a slash stands between them. -/
def joinPath (directory name : String) : String :=
  if directory.toList.getLast? = some '/' then directory ++ name else directory ++ "/" ++ name

end AtomicCss
