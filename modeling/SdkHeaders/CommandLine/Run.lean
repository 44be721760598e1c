import SdkHeaders.CommandLine.Arguments
import SdkHeaders.Files.Generate

/-!
# Commands

What the commands of the program do and tell.

Main definitions:

- Structure `Outcome` is the status of a run with what it tells.
- Definitions `Report.check`, `Report.list`, `Report.preview` and `Report.generate` word what the
  commands tell.
- Definition `Invocation.run` runs an invocation.
-/

namespace SdkHeaders

/-! ## Outcomes -/

/-- How a run ended. -/
structure Outcome where
  /-- The status: zero for success, one for a fault and two for misuse. -/
  status : Nat
  /-- What is told on success. -/
  output : String
  /-- What is told about a failure. -/
  complaint : String
  deriving DecidableEq, Repr

namespace Outcome

/-- A successful run that tells something line by line. -/
def success (lines : List String) : Outcome :=
  ⟨0, String.join (lines.map (· ++ "\n")), ""⟩

/-- A failed run. -/
def failure (message : String) : Outcome :=
  ⟨1, "", message ++ "\n"⟩

end Outcome

/-! ## Reports -/

namespace Report

/-- The text, filled up with spaces to a width. -/
def padded (width : Nat) (s : String) : String :=
  s ++ String.ofList (List.replicate (width - s.length) ' ')

/-- A role in its column with something after it. -/
def roleRow (role : Role) (s : String) : String :=
  padded 38 role.text ++ " " ++ s

/-- The numbers of classes and enumerations. -/
def sizes (model : Model) : String :=
  toString model.classMap.size ++ " classes, " ++ toString model.enumMap.size ++ " enums"

/-- How often each role occurs, in the order of the roles and without those that do not
occur. -/
def roleCounts (roles : List Role) : List (Role × Nat) :=
  (Role.all.map fun role => (role, roles.count role)).filter fun pair => pair.2 ≠ 0

/-- What is told about a model that has been checked. -/
def check (path : String) (model : Model) (entities : List Entity) : List String :=
  ["✓ " ++ path ++ " is valid", "  " ++ sizes model ++ " in " ++ model.headerSpace,
    "  " ++ toString entities.length ++ " entities"] ++
    (roleCounts (entities.map Entity.role)).map fun pair =>
      "    " ++ roleRow pair.1 (toString pair.2)

/-- The list of descriptors with their names. -/
def list (naming : Naming) (ds : List Descriptor) : List String :=
  if ds.isEmpty then ["No entities derived"]
  else "Entities:" :: ds.map fun d => "  " ++ roleRow d.role (naming.descriptorName d)

/-- A heading between two rules. -/
def ruled (s : String) : String :=
  "── " ++ s ++ " ──"

/-- The headers one after the other. -/
def preview (files : List Model.PreviewFile) : List String :=
  (files.flatMap fun file => [ruled file.path, file.content]) ++
    [ruled "Summary", toString files.length ++ " files would be generated"]

/-- What is told about headers that have been saved. -/
def generate (output : String) (model : Model) (report : SaveReport) : List String :=
  [model.headerSpace ++ " (" ++ model.space ++ ")", "  " ++ sizes model] ++
    (model.container?.toList.map fun c => "  service: " ++ c.name) ++
    ["", "Generated: " ++ output ++ "/ (" ++ toString report.total ++ " files, " ++
      toString report.written.length ++ " written, " ++ toString report.unchanged.length ++
      " unchanged)"] ++
    if report.written.isEmpty then []
    else ["", "Written:"] ++ report.written.map fun name => "  + " ++ name

end Report

/-! ## Running -/

/-- The name and the version of the program. -/
def versionText : String := "graphgen 0.3.0"

variable {m : Type → Type} [Monad m] [FileAccess m]

/-- The outcome of showing what has been derived. -/
def shown {α : Type} (report : α → List String) : Derived α → Outcome
  | .ok a => .success (report a)
  | .error e => .failure e.message

/-- Run a command on a model. -/
def Action.runOn (action : Action) (options : Options) (model : Model) : m Outcome :=
  let setting := Model.standardSetting (options.serviceUrl?.getD Model.defaultServiceUrl)
  match action with
  | .check => pure (shown (Report.check options.model model) (model.entities setting))
  | .list => pure (shown (Report.list setting.target.naming) (model.descriptors setting))
  | .generate =>
      if options.dryRun then pure (shown Report.preview (model.preview setting))
      else do
        match ← model.generate setting options.output with
        | .ok report => return .success (Report.generate options.output model report)
        | .error e => return .failure e.message

/-- Run a command. -/
def Action.run (action : Action) (options : Options) : m Outcome := do
  match ← loadFile options.model with
  | .error fault => return .failure fault.message
  | .ok model => action.runOn options model

/-- Run an invocation.  What the parser of the command line tells by itself, about how the program
is called and to complete its commands in a shell, is left out. -/
def Invocation.run : Invocation → m Outcome
  | .perform action options => action.run options
  | .version => pure (.success [versionText])
  | .completions _ | .help => pure (.success [])
  | .misuse => pure ⟨2, "", ""⟩

/-- Run the program with its arguments. -/
def runProgram (arguments : List String) : m Outcome :=
  (Invocation.ofArguments arguments).run

end SdkHeaders
