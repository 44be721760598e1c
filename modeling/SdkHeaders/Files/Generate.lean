import SdkHeaders.Document.Load
import SdkHeaders.Files.Access
import SdkHeaders.Header.Rendering

/-!
# Models and headers in files

Loading a model from a file and saving the headers of a model.

Main definitions:

- Definition `loadFile` loads the model in a file.
- Definition `Model.generate` saves the headers of a model in a folder.
-/

namespace SdkHeaders

variable {m : Type → Type} [Monad m] [FileAccess m]

/-- Load the model in a file, whose extension selects the notation. -/
def loadFile (path : String) : m (Except Fault Model) := do
  match ← FileAccess.readText path with
  | none => return .error (.unreadable path)
  | some t => return (SourceFile.mk path t).load (Format.ofPath path)

/-- Why the headers of a model could not be generated. -/
inductive GenerationError where
  /-- The headers could not be derived. -/
  | derivation (e : DerivationError)
  /-- A header could not be saved. -/
  | saving (fault : SaveFault)
  deriving DecidableEq, Repr

/-- The sentence that states why headers could not be generated. -/
def GenerationError.message : GenerationError → String
  | derivation e => e.message
  | saving fault => fault.message

/-- Save the headers of a model in a folder.  Nothing is saved unless all headers can be
derived. -/
def Model.generate (setting : Header.Setting) (folder : String) (model : Model) :
    m (Except GenerationError SaveReport) := do
  match model.files setting with
  | .error e => return .error (.derivation e)
  | .ok files =>
      match ← saveFiles folder .empty files with
      | .error fault => return .error (.saving fault)
      | .ok report => return .ok report

end SdkHeaders
