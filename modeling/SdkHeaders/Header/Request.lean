import SdkHeaders.Header.Navigation

/-!
# Requests and request builders of classes

The service declarations of an entity class: a request that reads, creates, changes and
deletes one object, and the builder that makes such requests.

Main definitions:

- Type `Verb` lists what a request can do with an object.
- Definitions `requestContract` and `requestBuilderContract` describe the two roles.
-/

namespace SdkHeaders.Header

/-! ## Verbs -/

/-- What a request does with an object. -/
inductive Verb where
  /-- Fetch the object. -/
  | get
  /-- Create the object. -/
  | create
  /-- Change the object. -/
  | update
  /-- Delete the object. -/
  | delete
  deriving DecidableEq, Repr

namespace Verb

/-- The verbs in order. -/
def all : List Verb :=
  [get, create, update, delete]

/-- The name of the method. -/
def methodName : Verb → String
  | get => "GetAsync"
  | create => "CreateAsync"
  | update => "UpdateAsync"
  | delete => "DeleteAsync"

/-- The name of the protocol method. -/
def httpMethod : Verb → String
  | get => "GET"
  | create => "POST"
  | update => "PATCH"
  | delete => "DEL"

/-- Whether the object is sent along. -/
def sends : Verb → Bool
  | get => false
  | create => true
  | update => true
  | delete => false

/-- Whether the object is sent back. -/
def returns : Verb → Bool
  | get => true
  | create => true
  | update => true
  | delete => false

end Verb

/-- A result that will be known later. -/
def futureOf (type : TypeExpr) : TypeExpr :=
  .systemOf "std::future" type

/-- The parameter by which a request is called off. -/
def tokenParameter : Parameter :=
  .constReference (.system "pplx::cancellation_token") "token"

/-- The parameter by which an object is sent along. -/
def entityParameter (type : TypeExpr) : Parameter :=
  .constReference type "entity"

/-- The arguments that send a request, with the object if it is sent along. -/
def sendArguments (sends : Bool) : List String :=
  if sends then ["entity", "method", "token"] else ["method", "token"]

/-- The body of a method that sends a request and gives back the answer. -/
def exchange (http : String) (type : TypeExpr) (result : String) (sends : Bool) :
    List Statement :=
  [.httpMethod http, .blank, .sendInto result type (sendArguments sends), .blank,
    .giveBack result]

/-- The method of a verb for objects of a type. -/
def verbMethod (type : TypeExpr) (verb : Verb) : Method where
  signature :=
    ⟨futureOf (if verb.returns then type else .system "void"), verb.methodName,
      (if verb.sends then [entityParameter type] else []) ++ [tokenParameter]⟩
  body :=
    if verb.returns then exchange verb.httpMethod type "responseEntity" verb.sends
    else [.httpMethod verb.httpMethod, .blank, .send type (sendArguments verb.sends)]

/-! ## Contracts -/

/-- The request for one object of a class. -/
def requestContract (naming : Naming) (c : ClassDecl) : Contract :=
  let entity := naming.roleName (.ofClass c) .dataType
  { summary := "A request for " ++ entity ++ " entity."
    frameworkInterface := .user "IBaseRequest"
    frameworkClass := .user "BaseRequest"
    constructors := [requestConstructor (.user "BaseRequest")]
    methods := Verb.all.map (verbMethod (.user entity))
    shared := [.system "std::future", .system "pplx::cancellation_token", .user entity]
    concrete := .system "web::http::methods" :: requestConstructorNames }

/-- The builder of requests for one object of a class. -/
def requestBuilderContract (naming : Naming) (c : ClassDecl) : Contract :=
  let entity := naming.roleName (.ofClass c) .dataType
  let request := naming.roleName (.ofClass c) (.request .implementation)
  let requestInterface := naming.roleName (.ofClass c) (.request .interface)
  { summary := "A builder to create a request for " ++ entity ++ " entity."
    frameworkInterface := .user "IBaseRequestBuilder"
    frameworkClass := .user "BaseRequestBuilder"
    constructors := [requestConstructor (.user "BaseRequestBuilder")]
    methods := createRequest requestInterface request :: navigationMethods naming .held c
    shared :=
      .system "std::unique_ptr" :: .user requestInterface :: navigationShared naming c
    concrete :=
      .system "std::make_unique" :: .user request :: requestConstructorNames ++
        navigationConcrete naming c }

end SdkHeaders.Header
