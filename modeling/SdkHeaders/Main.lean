import SdkHeaders.CommandLine.Run

/-!
# The program

The command line program: files on a disk, the arguments, and the exit status.
-/

namespace SdkHeaders

/-- Whether an action on the disk succeeds. -/
def succeeds (action : IO Unit) : IO Bool := do
  try
    action
    return true
  catch _ => return false

instance : FileAccess IO where
  readText path := do
    try
      return some (← IO.FS.readFile path)
    catch _ => return none
  makeFolders path := succeeds (IO.FS.createDirAll path)
  writeText path t := succeeds (IO.FS.writeFile path t)

end SdkHeaders

/-- Run the program and tell what it has to tell. -/
def main (arguments : List String) : IO UInt32 := do
  let outcome : SdkHeaders.Outcome ← SdkHeaders.runProgram arguments
  (← IO.getStdout).putStr outcome.output
  (← IO.getStderr).putStr outcome.complaint
  return outcome.status.toUInt32
