import SdkHeaders.Code.Layout
import SdkHeaders.Cpp.Literal
import SdkHeaders.Cpp.Target

/-!
# Methods and their parts

Parameters, signatures and bodies of the methods of a declaration, as data.  Each part has
a spelling and a list of the type names that it mentions.

Main definitions:

- Structures `Parameter` and `Signature` describe how a method is called.
- Type `Statement` lists the statements of method bodies.
- Structure `Method` is a signature with its body.
- Structure `Initializer` is the call by which a constructor sets up its base.
-/

namespace SdkHeaders.Header

/-! ## Parameters and signatures -/

/-- How a parameter is passed. -/
inductive Passing where
  /-- By value. -/
  | value
  /-- By reference. -/
  | reference
  /-- By reference to an object that stays as it is. -/
  | constReference
  deriving DecidableEq, Repr

/-- A parameter of a method or a constructor. -/
structure Parameter where
  /-- The type of the parameter. -/
  type : TypeExpr
  /-- How the parameter is passed. -/
  passing : Passing
  /-- The name of the parameter. -/
  name : String
  /-- The value that is passed if none is given. -/
  default? : Option String
  deriving DecidableEq, Repr

namespace Parameter

/-- A parameter that is passed by value. -/
def value (type : TypeExpr) (name : String) : Parameter :=
  ⟨type, .value, name, none⟩

/-- A parameter that is passed by reference. -/
def reference (type : TypeExpr) (name : String) : Parameter :=
  ⟨type, .reference, name, none⟩

/-- A parameter that is passed by reference and stays as it is. -/
def constReference (type : TypeExpr) (name : String) : Parameter :=
  ⟨type, .constReference, name, none⟩

/-- The parameter with a default value. -/
def withDefault (p : Parameter) (default : String) : Parameter :=
  { p with default? := some default }

/-- The spelling of a parameter. -/
def text (p : Parameter) : String :=
  let declared :=
    match p.passing with
    | .value => p.type.text ++ " " ++ p.name
    | .reference => p.type.text ++ "& " ++ p.name
    | .constReference => "const " ++ p.type.text ++ "& " ++ p.name
  match p.default? with
  | some default => declared ++ " = " ++ default
  | none => declared

end Parameter

/-- The spelling of a parameter list. -/
def parameterText (ps : List Parameter) : String :=
  "(" ++ ", ".intercalate (ps.map Parameter.text) ++ ")"

/-- How a method is called. -/
structure Signature where
  /-- The type of the result. -/
  result : TypeExpr
  /-- The name of the method. -/
  name : String
  /-- The parameters in order. -/
  parameters : List Parameter
  deriving DecidableEq, Repr

namespace Signature

/-- The spelling of a signature. -/
def text (s : Signature) : String :=
  s.result.text ++ " " ++ s.name ++ parameterText s.parameters ++ " noexcept"

/-- The type names in a signature. -/
def names (s : Signature) : List TypeName :=
  s.result.names ++ s.parameters.flatMap fun p => p.type.names

end Signature

/-! ## Statements -/

/-- The end of a path. -/
inductive Segment where
  /-- A fixed text. -/
  | fixed (s : String)
  /-- The value of a parameter. -/
  | parameter (name : String)
  deriving DecidableEq, Repr

/-- The spelling of a path segment. -/
def Segment.text : Segment → String
  | fixed s => Literal.wide s
  | parameter name => name

/-- Where a method takes the client from. -/
inductive Transport where
  /-- The client that was handed to the builder. -/
  | held
  /-- The object itself is the client. -/
  | self
  deriving DecidableEq, Repr

/-- The expression for the client. -/
def Transport.text : Transport → String
  | held => "GetBaseClient()"
  | self => "*this"

/-- A statement of a method body. -/
inductive Statement where
  /-- Name the protocol method that a request uses. -/
  | httpMethod (verb : String)
  /-- Take the path of the builder. -/
  | takeBaseUrl
  /-- Extend the path of the builder by a segment. -/
  | extendUrl (segment : Segment)
  /-- Take the client. -/
  | takeClient (transport : Transport)
  /-- Return a new object for a path and the client. -/
  | returnNew (type : TypeExpr) (url : String)
  /-- Send the request and keep the answer. -/
  | sendInto (result : String) (type : TypeExpr) (arguments : List String)
  /-- Send the request and drop the answer. -/
  | send (type : TypeExpr) (arguments : List String)
  /-- Give the answer to the caller. -/
  | giveBack (result : String)
  /-- An empty line. -/
  | blank
  deriving DecidableEq, Repr

namespace Statement

/-- The call that sends a request. -/
def sending (type : TypeExpr) (arguments : List String) : String :=
  "co_await SendAsync<" ++ type.text ++ ">(" ++ ", ".intercalate arguments ++ ")"

/-- A statement as a line of code. -/
def layout : Statement → Layout
  | httpMethod verb => .line ("constexpr auto method\x7b web::http::methods::" ++ verb ++ " \x7d;")
  | takeBaseUrl => .line "const std::wstring& baseUrl\x7b GetBaseUrl() \x7d;"
  | extendUrl segment =>
      .line ("const std::wstring requestUrl\x7b AppendSegmentToRequestUrl(" ++ segment.text ++
        ") \x7d;")
  | takeClient transport => .line ("IBaseClient& baseClient\x7b " ++ transport.text ++ " \x7d;")
  | returnNew type url =>
      .line ("return std::make_unique<" ++ type.text ++ ">(" ++ url ++ ", baseClient);")
  | sendInto result type arguments =>
      .line ("const " ++ type.text ++ " " ++ result ++ "\x7b " ++ sending type arguments ++
        " \x7d;")
  | send type arguments => .line (sending type arguments ++ ";")
  | giveBack result => .line ("co_return " ++ result ++ ";")
  | blank => .blank

/-- The type names in a statement. -/
def names : Statement → List TypeName
  | httpMethod _ => [.system "web::http::methods"]
  | takeBaseUrl => [.system Cpp.wideString]
  | extendUrl _ => [.system Cpp.wideString]
  | takeClient _ => [.user "IBaseClient"]
  | returnNew type _ => .system "std::make_unique" :: type.names
  | sendInto _ type _ => type.names
  | send type _ => type.names
  | giveBack _ => []
  | blank => []

end Statement

/-- A method with its body. -/
structure Method where
  /-- How the method is called. -/
  signature : Signature
  /-- What the method does. -/
  body : List Statement
  deriving DecidableEq, Repr

namespace Method

/-- The type names in a method. -/
def names (m : Method) : List TypeName :=
  m.signature.names ++ m.body.flatMap Statement.names

end Method

/-! ## Initializers -/

/-- What is handed to the constructor of a base. -/
inductive Argument where
  /-- A parameter. -/
  | given (name : String)
  /-- A parameter that is given away. -/
  | moved (name : String)
  /-- A text. -/
  | literal (s : String)
  deriving DecidableEq, Repr

namespace Argument

/-- The spelling of an argument. -/
def text : Argument → String
  | given name => name
  | moved name => "std::move(" ++ name ++ ")"
  | literal s => Literal.wide (Literal.escape s)

/-- The library names in an argument. -/
def names : Argument → List TypeName
  | moved _ => [.system "std::move"]
  | _ => []

end Argument

/-- The call by which a constructor sets up its base. -/
structure Initializer where
  /-- The base. -/
  base : TypeExpr
  /-- The arguments of the call. -/
  arguments : List Argument
  deriving DecidableEq, Repr

namespace Initializer

/-- The spelling of an initializer. -/
def text (i : Initializer) : String :=
  i.base.text ++ "\x7b " ++ ", ".intercalate (i.arguments.map Argument.text) ++ " \x7d"

/-- The names in an initializer. -/
def names (i : Initializer) : List TypeName :=
  i.base.names ++ i.arguments.flatMap Argument.names

end Initializer

end SdkHeaders.Header
