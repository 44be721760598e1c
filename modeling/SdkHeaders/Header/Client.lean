import SdkHeaders.Header.Navigation

/-!
# Clients

The entry point of a service, made from the service container.

Main definition:

- Definition `clientContract` describes the client and its interface.
-/

namespace SdkHeaders.Header

/-- The parameters that supply authentication and transport. -/
def providerParameters : List Parameter :=
  [.constReference (sharedPointer "IAuthenticationProvider") "authenticationProvider",
    (Parameter.constReference (sharedPointer "IHttpProvider") "httpProvider").withDefault
      "nullptr"]

/-- The constructors of a client: at the address of the service, at a given address, and over
a connection that exists already. -/
def clientConstructors (serviceUrl : String) : List (List Parameter × Initializer) :=
  let base := TypeExpr.user "BaseClient"
  [(providerParameters,
      ⟨base, [.literal serviceUrl, .given "authenticationProvider", .given "httpProvider"]⟩),
    (.constReference wideStringType "baseUrl" :: providerParameters,
      ⟨base, [.given "baseUrl", .given "authenticationProvider", .given "httpProvider"]⟩),
    ([.constReference (sharedPointer "HttpClient") "httpClient"],
      ⟨base, [.literal serviceUrl, .given "httpClient"]⟩)]

/-- The client of a service container. -/
def clientContract (setting : Setting) (c : ClassDecl) : Contract :=
  let naming := setting.target.naming
  { summary :=
      "A service client for " ++ naming.roleName (.ofClass c) (.client .implementation) ++ "."
    frameworkInterface := .user "IBaseClient"
    frameworkClass := .user "BaseClient"
    constructors := clientConstructors setting.serviceUrl
    methods := navigationMethods naming .self c
    shared := navigationShared naming c
    concrete :=
      [.system Cpp.wideString, .system "std::shared_ptr", .user "IAuthenticationProvider",
        .user "IHttpProvider", .user "HttpClient"] ++ navigationConcrete naming c }

end SdkHeaders.Header
