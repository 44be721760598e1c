/-!
# Command line arguments

What the arguments of the program ask for.  Options may be written apart from their values
or together with them, and short flags may share one dash.

Main definitions:

- Type `Command` lists the commands with their options.
- Type `Invocation` is what a command line asks for.
- Definition `Invocation.ofArguments` reads a command line.
-/

namespace SdkHeaders

/-! ## Commands -/

/-- The shells for which completions are written. -/
inductive Shell where
  /-- The GNU shell. -/
  | bash
  /-- The Elvish shell. -/
  | elvish
  /-- The friendly shell. -/
  | fish
  /-- The PowerShell. -/
  | powershell
  /-- The Z shell. -/
  | zsh
  deriving DecidableEq, Repr

/-- The shell of a name. -/
def Shell.ofName? : String → Option Shell
  | "bash" => some .bash
  | "elvish" => some .elvish
  | "fish" => some .fish
  | "powershell" => some .powershell
  | "zsh" => some .zsh
  | _ => none

/-- The options of a command, as far as they are given. -/
structure Options where
  /-- The path of the model file. -/
  model? : Option String
  /-- The folder for the headers. -/
  output? : Option String
  /-- The address of the service. -/
  serviceUrl? : Option String
  /-- Whether the headers are shown instead of saved. -/
  dryRun : Bool
  deriving DecidableEq, Repr

namespace Options

/-- No options. -/
def empty : Options := ⟨none, none, none, false⟩

/-- The path of the model file. -/
def model (o : Options) : String :=
  o.model?.getD "model.toml"

/-- The folder for the headers. -/
def output (o : Options) : String :=
  o.output?.getD "."

end Options

/-- The commands that have options. -/
inductive Action where
  /-- Save or show the headers of a model. -/
  | generate
  /-- Check a model. -/
  | check
  /-- List the headers of a model. -/
  | list
  deriving DecidableEq, Repr

/-- What a command line asks for. -/
inductive Invocation where
  /-- Run a command with options. -/
  | perform (action : Action) (options : Options)
  /-- Write completions for a shell. -/
  | completions (shell : Shell)
  /-- Tell the version. -/
  | version
  /-- Explain the program. -/
  | help
  /-- The command line cannot be understood. -/
  | misuse
  deriving DecidableEq, Repr

/-! ## Flags and options -/

/-- A word that starts with a dash and has no value. -/
inductive Flag where
  /-- Tell more about the run. -/
  | verbose
  /-- Explain the program. -/
  | help
  /-- Tell the version. -/
  | version
  /-- Show the headers instead of saving them. -/
  | dryRun
  deriving DecidableEq, Repr

/-- A word that starts with a dash and has a value. -/
inductive Key where
  /-- The path of the model file. -/
  | model
  /-- The folder for the headers. -/
  | output
  /-- The address of the service. -/
  | serviceUrl
  deriving DecidableEq, Repr

/-- What is known at some place of the command line. -/
structure Vocabulary where
  /-- The flags. -/
  flags : List Flag
  /-- The options with values. -/
  keys : List Key
  /-- Whether a word without a dash names a shell. -/
  takesShell : Bool
  deriving DecidableEq, Repr

namespace Flag

/-- The long name of a flag. -/
def long : Flag → String
  | verbose => "verbose"
  | help => "help"
  | version => "version"
  | dryRun => "dry-run"

/-- The short name of a flag, if it has one. -/
def short? : Flag → Option Char
  | verbose => some 'v'
  | help => some 'h'
  | version => some 'V'
  | dryRun => none

end Flag

namespace Key

/-- The long name of an option. -/
def long : Key → String
  | model => "model"
  | output => "output"
  | serviceUrl => "service-url"

/-- The short name of an option, if it has one. -/
def short? : Key → Option Char
  | model => some 'm'
  | output => some 'o'
  | serviceUrl => none

/-- Whether the option takes an empty value. -/
def takesEmpty : Key → Bool
  | model => false
  | output => false
  | serviceUrl => true

end Key

namespace Vocabulary

/-- What is known in front of the command. -/
def outer : Vocabulary := ⟨[.verbose, .help, .version], [], false⟩

/-- What is known after a command. -/
def of : Action → Vocabulary
  | .generate => ⟨[.verbose, .help, .dryRun], [.model, .output, .serviceUrl], false⟩
  | .check => ⟨[.verbose, .help], [.model], false⟩
  | .list => ⟨[.verbose, .help], [.model], false⟩

/-- What is known after the command that writes completions. -/
def completions : Vocabulary := ⟨[.verbose, .help], [], true⟩

end Vocabulary

/-! ## Words -/

/-- What a word of the command line means. -/
inductive Word where
  /-- The end of the words that start with a dash. -/
  | terminator
  /-- Flags in order. -/
  | flags (fs : List Flag)
  /-- Flags and then an option with its value. -/
  | setting (fs : List Flag) (key : Key) (value : String)
  /-- Flags and then an option whose value is the next word. -/
  | pending (fs : List Flag) (key : Key)
  /-- Flags and then something that is not known. -/
  | unknown (fs : List Flag)
  /-- A word without a dash in front. -/
  | plain (s : String)
  deriving DecidableEq, Repr

namespace Word

/-- A word that is given by its long name, and perhaps a value after an equals sign. -/
def ofLong (v : Vocabulary) (cs : List Char) : Word :=
  let name := String.ofList (cs.takeWhile (· ≠ '='))
  let attached := cs.dropWhile (· ≠ '=')
  match v.flags.find? fun f => f.long = name with
  | some f => if attached.isEmpty then .flags [f] else .unknown []
  | none =>
      match v.keys.find? fun k => k.long = name with
      | some k =>
          match attached with
          | [] => .pending [] k
          | _ :: value => .setting [] k (String.ofList value)
      | none => .unknown []

/-- A word of short names after the flags that have been read from it.  The first option in
it takes the rest as its value, without an equals sign in front. -/
def ofShort (v : Vocabulary) (read : List Flag) : List Char → Word
  | [] => .flags read
  | c :: rest =>
      match v.flags.find? fun f => f.short? = some c with
      | some f => ofShort v (read ++ [f]) rest
      | none =>
          match v.keys.find? fun k => k.short? = some c with
          | some k =>
              match rest with
              | [] => .pending read k
              | '=' :: value => .setting read k (String.ofList value)
              | value => .setting read k (String.ofList value)
          | none => .unknown read

/-- The meaning of a word. -/
def of (v : Vocabulary) (s : String) : Word :=
  match s.toList with
  | ['-', '-'] => .terminator
  | '-' :: '-' :: rest => ofLong v rest
  | ['-'] => .plain s
  | '-' :: rest => ofShort v [] rest
  | _ => .plain s

/-- Whether a word can be the value of an option in front of it. -/
def isValue (s : String) : Bool :=
  match s.toList with
  | ['-'] => true
  | '-' :: _ => false
  | _ => true

end Word

/-! ## Reading options -/

/-- What has been read after a command. -/
structure Given where
  /-- The shell that a word without a dash names. -/
  shell? : Option Shell
  /-- The options. -/
  options : Options
  deriving DecidableEq, Repr

/-- The outcome of reading: what was given, or an invocation that settles the command line. -/
abbrev Reading := Except Invocation

namespace Given

/-- Nothing. -/
def empty : Given := ⟨none, .empty⟩

/-- Add a flag.  Only the first flag of its kind is taken, except for those that ask to
tell more. -/
def addFlag (g : Given) : Flag → Reading Given
  | .verbose => .ok g
  | .help => .error .help
  | .version => .error .version
  | .dryRun =>
      if g.options.dryRun then .error .misuse
      else .ok { g with options := { g.options with dryRun := true } }

/-- Add flags. -/
def addFlags (g : Given) (fs : List Flag) : Reading Given :=
  fs.foldlM addFlag g

/-- The value that is given for an option. -/
def value? (g : Given) : Key → Option String
  | .model => g.options.model?
  | .output => g.options.output?
  | .serviceUrl => g.options.serviceUrl?

/-- Put down the value of an option. -/
def put (g : Given) (value : String) : Key → Given
  | .model => { g with options := { g.options with model? := some value } }
  | .output => { g with options := { g.options with output? := some value } }
  | .serviceUrl => { g with options := { g.options with serviceUrl? := some value } }

/-- Add the value of an option, which is given only once and perhaps must not be empty. -/
def addValue (g : Given) (key : Key) (value : String) : Reading Given :=
  if (g.value? key).isSome || (value = "" && !key.takesEmpty) then .error .misuse
  else .ok (g.put value key)

/-- Add a word without a dash, which has to name a shell where one is known. -/
def addWord (v : Vocabulary) (g : Given) (s : String) : Reading Given :=
  match Shell.ofName? s with
  | some shell =>
      if v.takesShell && g.shell?.isNone then .ok { g with shell? := some shell }
      else .error .misuse
  | none => .error .misuse

/-- Read the words after a command.  What comes first decides: a fault behind a call for help
does not count, but one in front of it does. -/
def read (v : Vocabulary) (g : Given) : List String → Reading Given
  | [] => .ok g
  | s :: rest =>
      match Word.of v s with
      | .terminator => rest.foldlM (addWord v) g
      | .flags fs => do read v (← g.addFlags fs) rest
      | .unknown fs => do
          let _ ← g.addFlags fs
          .error .misuse
      | .setting fs key value => do
          read v (← (← g.addFlags fs).addValue key value) rest
      | .pending fs key => do
          let after ← g.addFlags fs
          match rest with
          | value :: more =>
              if Word.isValue value then read v (← after.addValue key value) more
              else .error .misuse
          | [] => .error .misuse
      | .plain word => do read v (← g.addWord v word) rest

end Given

/-! ## Command lines -/

namespace Invocation

/-- The invocation that reading comes to. -/
def ofReading (finish : Given → Invocation) : Reading Given → Invocation
  | .ok g => finish g
  | .error invocation => invocation

/-- The command of a name, apart from those without options. -/
def actionOf? : String → Option Action
  | "generate" => some .generate
  | "check" => some .check
  | "list" => some .list
  | _ => none

/-- The invocation for completions, for which a shell has to be given. -/
def completionsFor (g : Given) : Invocation :=
  g.shell?.elim .misuse .completions

/-- Whether a name is the name of a command. -/
def isCommand (name : String) : Bool :=
  ["generate", "check", "list", "completions", "help"].contains name

/-- The invocation for an explanation of the named command. -/
def helpFor : List String → Invocation
  | [] => .help
  | [name] => if isCommand name then .help else .misuse
  | _ => .misuse

/-- What a command with the words after it asks for. -/
def ofCommand (name : String) (rest : List String) : Invocation :=
  match actionOf? name with
  | some action =>
      ofReading (fun g => .perform action g.options) (Given.empty.read (.of action) rest)
  | none =>
      if name = "completions" then
        ofReading completionsFor (Given.empty.read .completions rest)
      else if name = "help" then helpFor rest
      else .misuse

/-- What the arguments of the program ask for. -/
def ofArguments : List String → Invocation
  | [] => .misuse
  | s :: rest =>
      match Word.of .outer s with
      | .flags fs => ofReading (fun _ => ofArguments rest) (Given.empty.addFlags fs)
      | .unknown fs => ofReading (fun _ => .misuse) (Given.empty.addFlags fs)
      | .plain name => ofCommand name rest
      | .terminator => .misuse
      | .setting _ _ _ => .misuse
      | .pending _ _ => .misuse

end Invocation

end SdkHeaders
