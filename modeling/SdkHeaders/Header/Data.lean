import SdkHeaders.Header.Facets
import SdkHeaders.Text.Blank

/-!
# Data types

The declarations that hold the data of a service: classes with their members and
enumerations, each with the functions that read them.

Main definitions:

- Definition `ClassDecl.dataEntity` makes the header of a class.
- Definition `EnumDecl.dataEntity` makes the header of an enumeration.
- Definitions `classReading` and `memberFields` list the reading steps and the data members
  of a class in the same order.
-/

namespace SdkHeaders

open Header

/-! ## Data members -/

/-- What a property is for: its description without blanks at the ends, or else its name in
words. -/
def Property.summary (p : Property) : String :=
  let description := Text.trim (p.description.getD "")
  if description = "" then "The " ++ Text.splitWords p.name ++ "." else description

/-- The type of one value of a property. -/
def Property.elementType (target : Target) (p : Property) : TypeExpr :=
  .plain (target.resolve p.type)

/-- The type of the data member of a property. -/
def Property.memberType (target : Target) (p : Property) : TypeExpr :=
  if p.collection then Target.sequenceOf (p.elementType target) else p.elementType target

/-- The names that the data member of a property depends on. -/
def Property.memberNames (target : Target) (p : Property) : List TypeName :=
  target.resolve p.type :: if p.collection then [.system Cpp.vector] else []

/-- The data member of a property. -/
def Property.member (target : Target) (p : Property) : Member :=
  .field p.summary (p.memberType target) (target.naming.memberName p.name)

/-- The step that reads a property. -/
def Property.reading (target : Target) (p : Property) : ReadStep :=
  .required p.name (target.naming.memberName p.name)
    (if p.collection then some (p.elementType target) else none)

namespace Header

/-- The data members of a class without base besides its properties. -/
def rootMembers : List Member :=
  [.field "Open data protocol payload." (.system Cpp.wideString) "odata",
    .field "Additional data." (.system Cpp.dictionary) "additionalData"]

/-- The data members of a class. -/
def memberFields (target : Target) (c : ClassDecl) : List Member :=
  c.properties.map (·.member target) ++ if c.base.isSome then [] else rootMembers

/-- The steps that read an object of a class: its base, its properties, and the type tag of
an object without base. -/
def classReading (target : Target) (c : ClassDecl) : List ReadStep :=
  (target.naming.baseType c).toList.map (fun base => .base (.user base)) ++
    c.properties.map (·.reading target) ++
      if c.base.isSome then [] else [.optional "@odata.type" "odata"]

/-- The names that the base of a class, or the lack of one, makes it depend on. -/
def baseNames (target : Target) (c : ClassDecl) : List TypeName :=
  match target.naming.baseType c with
  | some base => [.user base]
  | none => [.system Cpp.wideString, .system Cpp.dictionary]

/-- The names that every reader of objects depends on. -/
def readerNames : List TypeName :=
  [.system "web::json::value", .user "JsonUtils"]

end Header

/-- The header of the data of a class. -/
def ClassDecl.dataEntity (target : Target) (c : ClassDecl) : Entity :=
  let name := target.naming.roleName (.ofClass c) .dataType
  { name := name
    role := .dataType
    dependencies :=
      (readerNames ++ c.properties.flatMap (·.memberNames target) ++ baseNames target c).foldl
        Dependencies.add (.new name)
    declaration :=
      { summary := name ++ " model type."
        form := .ofClass false
        name := name
        bases := ⟨none, (target.naming.baseType c).map TypeExpr.user⟩
        members := memberFields target c }
    functions := [.readObject name (classReading target c)] }

/-! ## Enumerations -/

namespace Header

/-- The enumerators of an enumeration with their values. -/
def enumeratorEntries (target : Target) (e : EnumDecl) : List (String × Option Int) :=
  e.members.map fun member => (target.naming.enumeratorName member.name, member.value)

/-- The enumerators of an enumeration with the texts that stand for them. -/
def enumeratorArms (target : Target) (e : EnumDecl) : List (String × String) :=
  e.members.map fun member => (target.naming.enumeratorName member.name, member.name)

/-- The operators of flags. -/
def flagFunctions (name : String) : List FreeFunction :=
  [.flagOperator name "|", .flagOperator name "&", .flagAssign name]

/-- The functions that follow an enumeration. -/
def enumFunctions (target : Target) (name : String) (e : EnumDecl) : List FreeFunction :=
  if e.flags then
    flagFunctions name ++ [.parseEnum name (enumeratorArms target e), .readFlags name]
  else [.parseEnum name (enumeratorArms target e), .readEnum name]

/-- The names that an enumeration depends on. -/
def enumNames (e : EnumDecl) : List TypeName :=
  [.system e.intType.spelling, .system "std::wstring_view", .system "web::json::value",
    .user "StringUtils"] ++ if e.flags then [.system "std::underlying_type_t"] else []

end Header

/-- The header of an enumeration. -/
def EnumDecl.dataEntity (target : Target) (e : EnumDecl) : Entity :=
  let name := target.naming.roleName (.ofEnum e) .dataType
  { name := name
    role := .dataType
    dependencies := (enumNames e).foldl Dependencies.add (.new name)
    declaration :=
      { summary := name ++ " model enumeration."
        form := .ofEnum (.system e.intType.spelling)
        name := name
        bases := .empty
        members := if e.members.isEmpty then [] else [.enumerators (enumeratorEntries target e)] }
    functions := enumFunctions target name e }

end SdkHeaders
