import SdkHeaders.Header.Parts

/-!
# Free functions

The functions that follow a declaration: readers of answers, the reader of enumeration
values, and the operators of flags.

Main definitions:

- Type `ReadStep` lists what a reader of objects does with a field.
- Type `FreeFunction` lists the functions, and `FreeFunction.layout` writes them.
-/

namespace SdkHeaders.Header

/-! ## Reading objects -/

/-- A step in reading an object.  A failed step ends the reading. -/
inductive ReadStep where
  /-- Read the part of the object that belongs to its base. -/
  | base (type : TypeExpr)
  /-- Read a field that has to be present; a collection names the type of its elements. -/
  | required (key member : String) (element : Option TypeExpr)
  /-- Read a field if it is present. -/
  | optional (key member : String)
  deriving DecidableEq, Repr

namespace ReadStep

/-- Leave the function unless a call succeeds. -/
def check (call : String) : List Layout :=
  [.line ("if (!" ++ call ++ ")"), .braced [.line "return false;"]]

/-- The call that reads a field into a member of the object. -/
def fieldCall (key member : String) (element : Option TypeExpr) : String :=
  let reader :=
    match element with
    | some type => "Deserialize<" ++ type.text ++ ">"
    | none => "Deserialize"
  reader ++ "(jsonValue.at(" ++ Literal.platform key ++ "), object." ++ member ++ ")"

/-- A reading step as code. -/
def layout : ReadStep → List Layout
  | base type => check ("Deserialize(jsonValue, static_cast<" ++ type.text ++ "&>(object))")
  | required key member element => check (fieldCall key member element)
  | optional key member =>
      [.line ("if (jsonValue.has_field(" ++ Literal.platform key ++ "))"),
        .braced (check (fieldCall key member none))]

end ReadStep

/-! ## Functions -/

/-- A function that follows a declaration. -/
inductive FreeFunction where
  /-- Read an object step by step. -/
  | readObject (name : String) (steps : List ReadStep)
  /-- Combine two flags by an operator. -/
  | flagOperator (name operation : String)
  /-- Add flags to flags. -/
  | flagAssign (name : String)
  /-- Find the enumerator that is written as a given text; each arm is an enumerator with
  its text. -/
  | parseEnum (name : String) (arms : List (String × String))
  /-- Read one value of an enumeration. -/
  | readEnum (name : String)
  /-- Read a list of flags and combine them. -/
  | readFlags (name : String)
  deriving DecidableEq, Repr

namespace FreeFunction

/-- The signature of a function that reads a JSON value. -/
def readSignature (name : String) : String :=
  "inline bool Deserialize(const web::json::value& jsonValue, " ++ name ++ "& object) noexcept"

/-- A flag as a number of the underlying integer type. -/
def asNumber (name operand : String) : String :=
  "static_cast<std::underlying_type_t<" ++ name ++ ">>(" ++ operand ++ ")"

/-- Two flags combined by an operator. -/
def combined (name operation : String) : String :=
  "static_cast<" ++ name ++ ">(" ++ asNumber name "lhs" ++ " " ++ operation ++ " " ++
    asNumber name "rhs" ++ ")"

/-- An arm of the search for an enumerator. -/
def armLayout (name keyword : String) (arm : String × String) : List Layout :=
  [.line (keyword ++ " (trimmedValue == " ++ Literal.wide arm.2 ++ ")"),
    .braced [.line ("object = " ++ name ++ "::" ++ arm.1 ++ ";"), .blank, .line "return true;"]]

/-- The search for an enumerator. -/
def armsLayout (name : String) : List (String × String) → List Layout
  | [] => []
  | first :: rest =>
      [.line "const auto trimmedValue\x7b Utils::TrimString(value) \x7d;", .blank] ++
        armLayout name "if" first ++ rest.flatMap (armLayout name "else if") ++ [.blank]

/-- The signature line and the body of a function. -/
def parts : FreeFunction → String × List Layout
  | readObject name steps =>
      (readSignature name,
        (steps.flatMap fun step => step.layout ++ [.blank]) ++ [.line "return true;"])
  | flagOperator name operation =>
      ("inline " ++ name ++ " operator" ++ operation ++ "(const " ++ name ++ " lhs, const " ++
          name ++ " rhs) noexcept",
        [.line ("return " ++ combined name operation ++ ";")])
  | flagAssign name =>
      ("inline " ++ name ++ "& operator|=(" ++ name ++ "& lhs, const " ++ name ++
          " rhs) noexcept",
        [.line ("lhs = " ++ combined name "|" ++ ";"), .blank, .line "return lhs;"])
  | parseEnum name arms =>
      ("inline bool ParseEnumValue(const std::wstring_view value, " ++ name ++
          "& object) noexcept",
        armsLayout name arms ++ [.line "return false;"])
  | readEnum name =>
      (readSignature name,
        [.line "const auto enumValue\x7b jsonValue.as_string() \x7d;", .blank,
          .line "return ParseEnumValue(enumValue, object);"])
  | readFlags name =>
      (readSignature name,
        [.line ("object = static_cast<" ++ name ++ ">(0);"), .blank,
          .line "const auto enumValues\x7b Utils::SplitLine(jsonValue.as_string()) \x7d;", .blank,
          .line "for (const auto& enumValue : enumValues)",
          .braced
            [.line (name ++ " enumObject\x7b static_cast<" ++ name ++ ">(0) \x7d;"), .blank,
              .line "if (!ParseEnumValue(enumValue, enumObject))",
              .braced [.line "return false;"], .blank, .line "object |= enumObject;"],
          .blank, .line "return true;"])

/-- A function as code. -/
def layout (f : FreeFunction) : List Layout :=
  [.line f.parts.1, .braced f.parts.2]

end FreeFunction

end SdkHeaders.Header
