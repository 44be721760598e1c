import SdkHeaders.Files.Store

/-!
# Access to files

What a program does with files, apart from where the files are: in a store that is a value, or on a
disk where any operation may go wrong.

Main results:

- Class `FileAccess` lists the operations.
- Definition `saveFile` writes a file unless it holds the text already.
- Definition `saveFiles` writes files one after the other and stops at the first failure.
-/

namespace SdkHeaders

/-- The operations on files. -/
class FileAccess (m : Type → Type) where
  /-- The text of a file, if there is one that holds a text. -/
  readText : String → m (Option String)
  /-- Make a folder and the folders on the way to it; tell whether it is there. -/
  makeFolders : String → m Bool
  /-- Write a text to a file; tell whether it was written. -/
  writeText : String → String → m Bool

instance : FileAccess (StateM Store) where
  readText path := fun s => (s.read path, s)
  makeFolders path := fun s => s.makeFolders path
  writeText path t := fun s => s.write path (.text t)

/-! ## Saving -/

/-- Why a file could not be saved. -/
inductive SaveFault where
  /-- The folder could not be made. -/
  | noFolder (path : String)
  /-- The file could not be written. -/
  | noFile (path : String)
  deriving DecidableEq, Repr

/-- The sentence that states why a file could not be saved. -/
def SaveFault.message : SaveFault → String
  | noFolder path => "failed to create '" ++ path ++ "'"
  | noFile path => "failed to write '" ++ path ++ "'"

/-- What saving a file came to. -/
inductive SaveResult where
  /-- The file was written. -/
  | written
  /-- The file held the text already. -/
  | unchanged
  deriving DecidableEq, Repr

variable {m : Type → Type} [Monad m] [FileAccess m]

/-- Write a text to a file in a folder that is made first, if need be. -/
def writeInFolder (path t : String) : m (Except SaveFault SaveResult) := do
  let parent := Path.parent? path
  let ready ← parent.elim (pure true) FileAccess.makeFolders
  if ready then
    if ← FileAccess.writeText path t then return .ok .written else return .error (.noFile path)
  else return .error (.noFolder (parent.getD ""))

/-- Write a text to a file unless the file holds just that text. -/
def saveFile (path t : String) : m (Except SaveFault SaveResult) := do
  if (← FileAccess.readText path) = some t then return .ok .unchanged
  else writeInFolder path t

/-- Which files were written and which ones were left alone. -/
structure SaveReport where
  /-- The files that were written. -/
  written : List String
  /-- The files that held their texts already. -/
  unchanged : List String
  deriving DecidableEq, Repr

namespace SaveReport

/-- The report before the first file. -/
def empty : SaveReport := ⟨[], []⟩

/-- Add a file to the report. -/
def add (report : SaveReport) (name : String) : SaveResult → SaveReport
  | .written => { report with written := report.written ++ [name] }
  | .unchanged => { report with unchanged := report.unchanged ++ [name] }

/-- The number of files. -/
def total (report : SaveReport) : Nat :=
  report.written.length + report.unchanged.length

end SaveReport

/-- Save files with the given names and texts in a folder, one after the other.  The first
failure ends it. -/
def saveFiles (folder : String) (report : SaveReport) :
    List (String × String) → m (Except SaveFault SaveReport)
  | [] => pure (.ok report)
  | (name, t) :: rest => do
      match ← saveFile (Path.join folder name) t with
      | .error fault => return .error fault
      | .ok result => saveFiles folder (report.add name result) rest

end SdkHeaders
