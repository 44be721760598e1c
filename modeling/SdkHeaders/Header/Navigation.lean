import SdkHeaders.Header.Facets

/-!
# Navigation

How request builders and clients lead to the builders of what their properties refer to.

Main definitions:

- Definition `navigationMethods` lists the accessors of the navigation properties of a class.
- Definition `createRequest` is the method by which a builder makes its request.
- Definitions `navigationShared` and `navigationConcrete` list what accessors depend on.
-/

namespace SdkHeaders.Header

/-- A pointer that owns an object of a declared type. -/
def ownedPointer (name : String) : TypeExpr :=
  .systemOf "std::unique_ptr" (.user name)

/-- A pointer to an object of a declared type that has several owners. -/
def sharedPointer (name : String) : TypeExpr :=
  .systemOf "std::shared_ptr" (.user name)

/-- The type of wide strings. -/
def wideStringType : TypeExpr :=
  .system Cpp.wideString

/-! ## Accessors -/

/-- The accessor of a navigation property: it extends the path by the name of the property
and returns a builder for what the property leads to. -/
def navigationMethod (naming : Naming) (transport : Transport) (owner : ClassDecl)
    (p : Property) : Method where
  signature :=
    ⟨ownedPointer (naming.linkedBuilder owner p .interface), naming.methodName p, []⟩
  body :=
    [.extendUrl (.fixed p.name), .takeClient transport, .blank,
      .returnNew (.user (naming.linkedBuilder owner p .implementation)) "requestUrl"]

/-- The accessors of the navigation properties of a class. -/
def navigationMethods (naming : Naming) (transport : Transport) (owner : ClassDecl) :
    List Method :=
  owner.navigations.map (navigationMethod naming transport owner)

/-- The names that the accessors of a class depend on wherever they are declared. -/
def navigationShared (naming : Naming) (owner : ClassDecl) : List TypeName :=
  owner.navigations.flatMap fun p =>
    [.system "std::unique_ptr", .user (naming.linkedBuilder owner p .interface)]

/-- The names that the definitions of the accessors of a class depend on besides. -/
def navigationConcrete (naming : Naming) (owner : ClassDecl) : List TypeName :=
  owner.navigations.flatMap fun p =>
    [.system "std::make_unique", .system Cpp.wideString, .user "IBaseClient",
      .user (naming.linkedBuilder owner p .implementation)]

/-! ## Requests -/

/-- The method by which a builder makes its request at its own path. -/
def createRequest (interface implementation : String) : Method where
  signature := ⟨ownedPointer interface, "CreateRequest", []⟩
  body :=
    [.takeBaseUrl, .takeClient .held, .blank, .returnNew (.user implementation) "baseUrl"]

/-- The constructor of requests and request builders, which hands a path and the client to
the base. -/
def requestConstructor (base : TypeExpr) : List Parameter × Initializer :=
  ([.constReference wideStringType "requestUrl", .reference (.user "IBaseClient") "baseClient"],
    ⟨base, [.given "requestUrl", .given "baseClient"]⟩)

/-- The names that the constructor of requests and request builders depends on. -/
def requestConstructorNames : List TypeName :=
  [.system Cpp.wideString, .user "IBaseClient"]

end SdkHeaders.Header
