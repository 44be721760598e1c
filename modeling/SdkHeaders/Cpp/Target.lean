import SdkHeaders.Cpp.Dependencies
import SdkHeaders.Cpp.Keywords
import SdkHeaders.Derive.IntType
import SdkHeaders.Derive.Naming

/-!
# Target tables

The choices by which headers for the supporting framework are written: naming, spellings of
the primitive types, headers of library names, names of the framework, and layout.

Main results:

- Structure `Target` holds the tables, and `Target.standard` is the usual choice.
- Definition `Target.resolve` turns the name of a model type into a type name.
- Definition `Target.headersFor` looks up the headers of a library name.
- Theorem `Target.resolve_of_not_primitive`: a name that is not in the table of primitive
  types names a declared type.
-/

namespace SdkHeaders

/-! ## Tables -/

namespace Cpp

/-- The type of wide strings. -/
def wideString : String := "std::wstring"

/-- The template of sequences. -/
def vector : String := "std::vector"

/-- The type of open collections of named values. -/
def dictionary : String := "std::map<std::wstring, std::any>"

/-- The naming conventions: type names start with a capital letter, members keep their
names, and a trailing underscore sets a reserved word apart. -/
def naming : Naming where
  toType := Text.capitalize
  toMember := id
  reserved := keywords
  escape := fun word => word ++ "_"

/-- The spellings of the primitive types of service models. -/
def primitiveTypes : List (String × String) :=
  [("Binary", wideString), ("Boolean", "bool"), ("Byte", "unsigned char"),
    ("Date", wideString), ("DateTimeOffset", wideString), ("Double", "double"),
    ("Duration", wideString), ("Float", "float"), ("Guid", wideString),
    ("Int16", "std::int16_t"), ("Int32", "std::int32_t"), ("Int64", "std::int64_t"),
    ("Json", wideString), ("NsDictionary", dictionary), ("Single", "float"),
    ("Stream", wideString), ("String", wideString), ("TimeOfDay", wideString)]

/-- The headers of library names, one row for each header that a name needs. -/
def systemHeaders : List (String × String) :=
  [("std::int8_t", "cstdint"), ("std::int16_t", "cstdint"), ("std::int32_t", "cstdint"),
    ("std::int64_t", "cstdint"), ("std::uint8_t", "cstdint"), ("std::uint16_t", "cstdint"),
    ("std::uint32_t", "cstdint"), ("std::uint64_t", "cstdint"), ("std::any", "any"),
    ("std::string", "string"), (wideString, "string"), ("std::wstring_view", "string_view"),
    (vector, "vector"), ("std::map", "map"), (dictionary, "any"), (dictionary, "map"),
    (dictionary, "string"), ("std::future", "future"), ("std::unique_ptr", "memory"),
    ("std::make_unique", "memory"), ("std::shared_ptr", "memory"),
    ("std::underlying_type_t", "type_traits"), ("std::move", "utility"),
    ("web::json::value", "cpprest/json.h"), ("web::http::methods", "cpprest/http_msg.h"),
    ("pplx::cancellation_token", "pplx/pplxcancellation_token.h")]

/-- The types of the framework that generated headers include by name. -/
def frameworkTypes : List String :=
  ["BaseClient", "BaseRequest", "BaseRequestBuilder", "CollectionPage", "HttpClient",
    "IAuthenticationProvider", "IBaseClient", "IBaseRequest", "IBaseRequestBuilder",
    "ICollectionPage", "IHttpProvider", "JsonUtils", "StringUtils"]

end Cpp

/-- The spelling of an integer type. -/
def IntType.spelling (t : IntType) : String :=
  "std::" ++ (if t.signed then "" else "u") ++ "int" ++ toString t.width.bits ++ "_t"

/-! ## Targets -/

/-- The tables by which headers are written. -/
structure Target where
  /-- The naming conventions. -/
  naming : Naming
  /-- The spellings of the primitive types. -/
  primitiveTypes : List (String × String)
  /-- The headers of library names. -/
  systemHeaders : List (String × String)
  /-- The names that only the framework may declare. -/
  frameworkTypes : List String
  /-- One level of indentation. -/
  indent : String
  /-- The extension of header files, without its dot. -/
  headerExtension : String

namespace Target

/-- The usual tables. -/
def standard : Target where
  naming := Cpp.naming
  primitiveTypes := Cpp.primitiveTypes
  systemHeaders := Cpp.systemHeaders
  frameworkTypes := Cpp.frameworkTypes
  indent := "\t"
  headerExtension := "h"

/-- The name of the language of the headers. -/
def language : String := "cpp"

/-- Whether two names are equal up to the case of ASCII letters. -/
def sameLetters (s t : String) : Bool :=
  s.toList.map Char.toLower = t.toList.map Char.toLower

/-- The spelling of a primitive type, found without regard to the case of ASCII letters. -/
def primitive? (target : Target) (type : String) : Option String :=
  (target.primitiveTypes.find? fun row => sameLetters row.1 type).map Prod.snd

/-- The type name that the name of a model type stands for. -/
def resolve (target : Target) (type : String) : TypeName :=
  match target.primitive? type with
  | some spelling => .system spelling
  | none => .user (target.naming.typeName type)

/-- A sequence of elements of a type. -/
def sequenceOf (element : TypeExpr) : TypeExpr :=
  .systemOf Cpp.vector element

/-- The headers that declare a library name; none for names of the language itself. -/
def headersFor (target : Target) (name : String) : List String :=
  (target.systemHeaders.filter fun row => row.1 = name).map Prod.snd

/-- The file name of the header that declares a name. -/
def headerFile (target : Target) (name : String) : String :=
  name ++ "." ++ target.headerExtension

/-- A name without a row in the table of primitive types names a declared type. -/
theorem resolve_of_not_primitive {target : Target} {type : String}
    (h : target.primitive? type = none) :
    target.resolve type = .user (target.naming.typeName type) := by
  simp [resolve, h]

end Target

end SdkHeaders
