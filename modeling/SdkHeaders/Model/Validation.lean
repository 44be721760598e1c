import SdkHeaders.Model.Basic
import SdkHeaders.Text.Words
import SdkHeaders.Text.Blank

/-!
# Validation of model files

Which model files describe a service.  Enumerations are checked before classes and classes
before bases, each in file order, and the first violation found is reported.

Main definitions:

- Type `Violation` lists the causes of rejection.
- Definition `ModelFile.validate` finds the first violation of a model file.
-/

namespace SdkHeaders

/-! ## Violations -/

/-- A reason to reject a model file. -/
inductive Violation where
  /-- The namespace is blank. -/
  | blankNamespace
  /-- An enumeration has no name. -/
  | emptyEnumName
  /-- A member of the named enumeration has no name. -/
  | emptyMemberName (enumName : String)
  /-- Two members of one enumeration have the same name. -/
  | duplicateMember (name : String)
  /-- Two members of one enumeration have the same capitalized name. -/
  | sharedEnumerator (enumName first second enumerator : String)
  /-- A class has no name. -/
  | emptyClassName
  /-- A property of the named class has no name. -/
  | emptyPropertyName (className : String)
  /-- A property has no type. -/
  | missingType (className property : String)
  /-- Two properties of one class have the same name. -/
  | duplicateProperty (name : String)
  /-- Two enumerations or classes have the same name. -/
  | duplicateType (name : String)
  /-- The base of a class is not a class of the file. -/
  | unknownBase (className base : String)
  /-- Following bases from a class leads back to a class already passed. -/
  | baseCycle (className : String) (chain : List String)
  deriving DecidableEq, Repr

/-- The outcome of a check. -/
abbrev Verdict := Except Violation

/-! ## Enumerations and classes -/

namespace ModelFile

/-- Check the members of an enumeration after the members named in `earlier`. -/
def checkMembers (enumName : String) (earlier : List String) :
    List EnumMember → Verdict Unit
  | [] => .ok ()
  | member :: rest =>
      if member.name = "" then .error (.emptyMemberName enumName)
      else if member.name ∈ earlier then .error (.duplicateMember member.name)
      else
        let enumerator := Text.capitalize member.name
        match earlier.find? fun name => Text.capitalize name = enumerator with
        | some first => .error (.sharedEnumerator enumName first member.name enumerator)
        | none => checkMembers enumName (earlier ++ [member.name]) rest

/-- Check one enumeration. -/
def checkEnum (e : EnumDecl) : Verdict Unit :=
  if e.name = "" then .error .emptyEnumName else checkMembers e.name [] e.members

/-- Check the properties of a class after the properties named in `earlier`. -/
def checkProperties (className : String) (earlier : List String) :
    List Property → Verdict Unit
  | [] => .ok ()
  | property :: rest =>
      if property.name = "" then .error (.emptyPropertyName className)
      else if property.type = "" then .error (.missingType className property.name)
      else if property.name ∈ earlier then .error (.duplicateProperty property.name)
      else checkProperties className (earlier ++ [property.name]) rest

/-- Check one class apart from its base. -/
def checkClass (c : ClassDecl) : Verdict Unit :=
  if c.name = "" then .error .emptyClassName else checkProperties c.name [] c.properties

/-- Check declarations one by one, each for itself and then against the type names that
came before; yield the type names passed. -/
def checkTypes {α : Type} (check : α → Verdict Unit) (nameOf : α → String)
    (earlier : List String) : List α → Verdict (List String)
  | [] => .ok earlier
  | declared :: rest =>
      match check declared with
      | .error violation => .error violation
      | .ok () =>
          if nameOf declared ∈ earlier then .error (.duplicateType (nameOf declared))
          else checkTypes check nameOf (earlier ++ [nameOf declared]) rest

/-! ## Bases -/

/-- The base that the first class of a name declares. -/
def baseOf (classes : List ClassDecl) (name : String) : Option String :=
  (classes.find? fun c => c.name = name).bind (·.base)

/-- Follow bases from `name` after the names in `chain`, for at most `steps` steps.  Yield
the chain up to the first repeated name, if one is met. -/
def repeatedChain (base : String → Option String) :
    (steps : Nat) → (chain : List String) → (name : String) → Option (List String)
  | 0, _, _ => none
  | steps + 1, chain, name =>
      if name ∈ chain then some (chain ++ [name])
      else
        match base name with
        | none => none
        | some next => repeatedChain base steps (chain ++ [name]) next

/-- Check the base of one class.  A chain of bases passes each class at most once before it
ends or repeats a name, which bounds the number of steps. -/
def checkBase (classes : List ClassDecl) (c : ClassDecl) : Verdict Unit :=
  match c.base with
  | none => .ok ()
  | some base =>
      if classes.any fun d => d.name = base then
        match repeatedChain (baseOf classes) (classes.length + 1) [c.name] base with
        | some chain => .error (.baseCycle c.name chain)
        | none => .ok ()
      else .error (.unknownBase c.name base)

/-- Check the bases of some classes one by one. -/
def checkBases (classes : List ClassDecl) : List ClassDecl → Verdict Unit
  | [] => .ok ()
  | c :: rest =>
      match checkBase classes c with
      | .error violation => .error violation
      | .ok () => checkBases classes rest

/-! ## Model files -/

/-- Find the first violation of a model file.  Enumerations and classes share their
names. -/
def validate (file : ModelFile) : Verdict Unit :=
  if Text.trim file.space = "" then .error .blankNamespace
  else
    match checkTypes checkEnum EnumDecl.name [] file.enums with
    | .error violation => .error violation
    | .ok names =>
        match checkTypes checkClass ClassDecl.name names file.classes with
        | .error violation => .error violation
        | .ok _ => checkBases file.classes file.classes

end ModelFile

end SdkHeaders
