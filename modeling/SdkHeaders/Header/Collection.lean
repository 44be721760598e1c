import SdkHeaders.Header.Data
import SdkHeaders.Header.Request

/-!
# Declarations of collections

The service declarations of a collection-valued navigation property: its pages, its request,
the builder of that request, and the answer that carries a page.

Main definitions:

- Definitions `pageContract`, `collectionRequestContract` and
  `collectionRequestBuilderContract` describe the roles with two facets.
- Definition `responseEntity` makes the header of the answer.
-/

namespace SdkHeaders.Header

/-- What a declaration of a collection is for. -/
def collectionSummary (target : Target) (what : String) (owner : ClassDecl) (p : Property) :
    String :=
  what ++ " " ++ (p.elementType target).text ++ " collection for " ++
    target.naming.typeName owner.name ++ " entity."

/-- The pages of a collection. -/
def pageContract (target : Target) (owner : ClassDecl) (p : Property) : Contract :=
  let element := p.elementType target
  { summary := collectionSummary target "A page of" owner p
    frameworkInterface := .userOf "ICollectionPage" element
    frameworkClass := .userOf "CollectionPage" element
    constructors :=
      [([.value (Target.sequenceOf element) "items", .value wideStringType "nextLink"],
        ⟨.userOf "CollectionPage" element, [.moved "items", .moved "nextLink"]⟩)]
    methods := []
    shared := [target.resolve p.type]
    concrete := [.system Cpp.vector, .system Cpp.wideString, .system "std::move"] }

/-- The method that fetches a page. -/
def getPage (response : String) : Method where
  signature := ⟨futureOf (.user response), "GetAsync", [tokenParameter]⟩
  body := exchange "GET" (.user response) "response" false

/-- The method that adds an object to a collection. -/
def addItem (element : TypeExpr) : Method where
  signature := ⟨futureOf element, "AddAsync", [entityParameter element, tokenParameter]⟩
  body := exchange "POST" element "responseEntity" true

/-- The request for a collection. -/
def collectionRequestContract (target : Target) (owner : ClassDecl) (p : Property) :
    Contract :=
  let response := target.naming.roleName (.ofProperty owner p) .collectionResponse
  { summary := collectionSummary target "A request for" owner p
    frameworkInterface := .user "IBaseRequest"
    frameworkClass := .user "BaseRequest"
    constructors := [requestConstructor (.user "BaseRequest")]
    methods := [getPage response, addItem (p.elementType target)]
    shared :=
      [target.resolve p.type, .system "std::future", .system "pplx::cancellation_token",
        .user response]
    concrete := .system "web::http::methods" :: requestConstructorNames }

/-- The method that leads to one item of a collection. -/
def itemAccess (naming : Naming) (p : Property) : Method where
  signature :=
    ⟨ownedPointer (naming.itemBuilder p .interface), "Item",
      [.constReference wideStringType "id"]⟩
  body :=
    [.extendUrl (.parameter "id"), .takeClient .held, .blank,
      .returnNew (.user (naming.itemBuilder p .implementation)) "requestUrl"]

/-- The builder of requests for a collection. -/
def collectionRequestBuilderContract (target : Target) (owner : ClassDecl) (p : Property) :
    Contract :=
  let naming := target.naming
  let request := naming.roleName (.ofProperty owner p) (.collectionRequest .implementation)
  let requestInterface :=
    naming.roleName (.ofProperty owner p) (.collectionRequest .interface)
  { summary := collectionSummary target "A request builder for" owner p
    frameworkInterface := .user "IBaseRequestBuilder"
    frameworkClass := .user "BaseRequestBuilder"
    constructors := [requestConstructor (.user "BaseRequestBuilder")]
    methods := [createRequest requestInterface request, itemAccess naming p]
    shared :=
      [.system "std::unique_ptr", .system Cpp.wideString, .user requestInterface,
        .user (naming.itemBuilder p .interface)]
    concrete :=
      .system "std::make_unique" :: .user request ::
        .user (naming.itemBuilder p .implementation) :: requestConstructorNames }

/-- The header of the answer that carries a page of a collection. -/
def responseEntity (target : Target) (owner : ClassDecl) (p : Property) : Entity :=
  let name := target.naming.roleName (.ofProperty owner p) .collectionResponse
  let element := p.elementType target
  { name := name
    role := .collectionResponse
    dependencies :=
      (target.resolve p.type :: .system Cpp.vector :: .system Cpp.wideString ::
        readerNames).foldl Dependencies.add (.new name)
    declaration :=
      { summary := collectionSummary target "A response for" owner p
        form := .ofClass true
        name := name
        bases := .empty
        members :=
          [.field "The value." (Target.sequenceOf element) "value",
            .field "The next link." wideStringType "nextLink"] }
    functions :=
      [.readObject name
        [.required "value" "value" (some element), .optional "@odata.nextLink" "nextLink"]] }

end SdkHeaders.Header
