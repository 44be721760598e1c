import SdkHeaders.Header.Parts

/-!
# Declarations

A class, an interface or an enumeration with its members, as data, and its layout.  Members
are laid out by themselves and then placed in the scope of the declaration.

Main definitions:

- Type `Member` lists the members of declarations.
- Structure `Declaration` is a declaration with its summary and its bases.
- Definitions `Declaration.headLayout` and `Declaration.layout` write it.
- Definitions `Declaration.prototypes` and `Declaration.methods` list how it is called, and
  `Declaration.fields` and `Declaration.enumerators` what it consists of.
-/

namespace SdkHeaders.Header

/-- The lines of a summary comment. -/
def summaryLines (s : String) : List Layout :=
  [.line "/// <summary>", .line ("/// " ++ s), .line "/// </summary>"]

/-! ## Members -/

/-- A member of a declaration. -/
inductive Member where
  /-- A data member with its summary. -/
  | field (summary : String) (type : TypeExpr) (name : String)
  /-- The enumerators of an enumeration, some with a value. -/
  | enumerators (entries : List (String × Option Int))
  /-- The destructor of an interface. -/
  | virtualDestructor (name : String)
  /-- The methods that an interface asks for. -/
  | prototypes (signatures : List Signature)
  /-- A constructor that only sets up its base. -/
  | constructor (name : String) (parameters : List Parameter) (initializer : Initializer)
  /-- The destructor of a class. -/
  | destructor (name : String)
  /-- A method of a class. -/
  | method (m : Method)
  deriving DecidableEq, Repr

namespace Member

/-- The spelling of an enumerator, apart from the comma behind it. -/
def enumeratorText (entry : String × Option Int) : String :=
  match entry.2 with
  | some value => entry.1 ++ " = " ++ toString value
  | none => entry.1

/-- The lines of enumerators: all but the last one end in a comma. -/
def enumeratorLines : List (String × Option Int) → List Layout
  | [] => []
  | [last] => [.line (enumeratorText last)]
  | entry :: rest => .line (enumeratorText entry ++ ",") :: enumeratorLines rest

/-- The line that asks for a method. -/
def prototypeLine (s : Signature) : Layout :=
  .line ("virtual " ++ s.text ++ " = 0;")

/-- A member as code. -/
def layout : Member → List Layout
  | field summary type name => summaryLines summary ++ [.line (type.text ++ " " ++ name ++ ";")]
  | enumerators entries => enumeratorLines entries
  | virtualDestructor name => [.line ("virtual ~" ++ name ++ "() noexcept = default;")]
  | prototypes signatures => signatures.map prototypeLine
  | constructor name parameters initializer =>
      [.line ("explicit " ++ name ++ parameterText parameters ++ " noexcept"),
        .continuation (": " ++ initializer.text), .braced []]
  | destructor name => [.line ("~" ++ name ++ "() noexcept override"), .braced []]
  | method m =>
      [.line (m.signature.text ++ " override"), .braced (m.body.map Statement.layout)]

/-- The type names in a member. -/
def names : Member → List TypeName
  | field _ type _ => type.names
  | enumerators _ => []
  | virtualDestructor _ => []
  | prototypes signatures => signatures.flatMap Signature.names
  | constructor _ parameters initializer =>
      (parameters.flatMap fun p => p.type.names) ++ initializer.names
  | destructor _ => []
  | method m => m.names

/-- The methods that a member asks for. -/
def prototypeList : Member → List Signature
  | prototypes signatures => signatures
  | _ => []

/-- The methods that a member defines. -/
def methodList : Member → List Method
  | method m => [m]
  | _ => []

/-- The data members that a member declares: their types and names. -/
def fieldList : Member → List (TypeExpr × String)
  | field _ type name => [(type, name)]
  | _ => []

/-- The enumerators that a member declares, some with a value. -/
def enumeratorList : Member → List (String × Option Int)
  | enumerators entries => entries
  | _ => []

end Member

/-! ## Declarations -/

/-- The form of a declaration. -/
inductive Form where
  /-- A class, which may be closed to further derivation. -/
  | ofClass (sealed : Bool)
  /-- An interface. -/
  | ofInterface
  /-- An enumeration over an integer type. -/
  | ofEnum (underlying : TypeExpr)
  deriving DecidableEq, Repr

/-- A declaration. -/
structure Declaration where
  /-- What the declaration is for. -/
  summary : String
  /-- The form of the declaration. -/
  form : Form
  /-- The declared name. -/
  name : String
  /-- The bases. -/
  bases : BaseList
  /-- The members in order. -/
  members : List Member
  deriving DecidableEq, Repr

namespace Declaration

/-- The line that introduces the name. -/
def signature (d : Declaration) : String :=
  match d.form with
  | .ofClass true => "class " ++ d.name ++ " final"
  | .ofClass false => "class " ++ d.name
  | .ofInterface => "struct " ++ d.name
  | .ofEnum underlying => "enum class " ++ d.name ++ " : " ++ underlying.text

/-- The list of bases, if there are any. -/
def baseClause (d : Declaration) : List Layout :=
  if d.bases.isEmpty then [] else [.continuation (": " ++ d.bases.join "public " ", ")]

/-- The summary, the name and the bases as code. -/
def headLayout (d : Declaration) : List Layout :=
  summaryLines d.summary ++ .line d.signature :: d.baseClause

/-- The label that opens a class to the outside; other forms are open without it. -/
def accessLabel (d : Declaration) : List Layout :=
  match d.form with
  | .ofClass _ => [.label "public:"]
  | _ => []

/-- The members as code, each laid out by itself, with empty lines between them. -/
def memberLayout (indent : String) (d : Declaration) : List Layout :=
  Layout.spaced (d.members.map fun m => [.text (Layout.render indent m.layout)])

/-- The declaration as code. -/
def layout (indent : String) (d : Declaration) : List Layout :=
  d.headLayout ++ [.scope "\x7d;" (d.accessLabel ++ d.memberLayout indent)]

/-- The methods that the declaration asks for. -/
def prototypes (d : Declaration) : List Signature :=
  d.members.flatMap Member.prototypeList

/-- The methods that the declaration defines. -/
def methods (d : Declaration) : List Method :=
  d.members.flatMap Member.methodList

/-- The data members of the declaration. -/
def fields (d : Declaration) : List (TypeExpr × String) :=
  d.members.flatMap Member.fieldList

/-- The enumerators of the declaration. -/
def enumerators (d : Declaration) : List (String × Option Int) :=
  d.members.flatMap Member.enumeratorList

/-- The type names in the declaration. -/
def names (d : Declaration) : List TypeName :=
  (d.bases.toList.flatMap TypeExpr.names) ++ d.members.flatMap Member.names

end Declaration

end SdkHeaders.Header
