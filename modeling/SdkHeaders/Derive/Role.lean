/-!
# Roles of model elements

A model element is turned into several declarations, one for each role that it plays.  Most
roles come in two facets: the declaration that does the work and the abstract interface that
it implements.

Main results:

- Type `Role` lists the roles, and `Role.all` orders them.
- Definitions `Role.implementation` and `Role.interface?` lead from one facet to the other.
- Theorem `Role.mem_all`: the ordered list holds every role.
- Theorem `Role.interface?_implementation`: an interface describes exactly one
  implementation.
-/

namespace SdkHeaders

/-- Whether a declaration does the work or is the interface to it. -/
inductive Facet where
  /-- A concrete declaration. -/
  | implementation
  /-- The abstract interface of a concrete declaration. -/
  | interface
  deriving DecidableEq, Repr

/-- What a declaration is for. -/
inductive Role where
  /-- The data of a class or an enumeration. -/
  | dataType
  /-- A request for one object. -/
  | request (facet : Facet)
  /-- The builder of requests for one object. -/
  | requestBuilder (facet : Facet)
  /-- One page of a collection. -/
  | collectionPage (facet : Facet)
  /-- A request for a collection. -/
  | collectionRequest (facet : Facet)
  /-- The builder of requests for a collection. -/
  | collectionRequestBuilder (facet : Facet)
  /-- The answer that carries a page of a collection. -/
  | collectionResponse
  /-- The entry point of the service. -/
  | client (facet : Facet)
  deriving DecidableEq, Repr

namespace Role

/-! ## Lists of roles -/

/-- The roles of an entity class. -/
def ofEntity : List Role :=
  [.dataType, .request .implementation, .request .interface,
    .requestBuilder .implementation, .requestBuilder .interface]

/-- The roles of a collection-valued navigation property. -/
def ofCollection : List Role :=
  [.collectionPage .implementation, .collectionPage .interface,
    .collectionRequest .implementation, .collectionRequest .interface,
    .collectionRequestBuilder .implementation, .collectionRequestBuilder .interface,
    .collectionResponse]

/-- The roles of the service container. -/
def ofContainer : List Role :=
  [.client .implementation, .client .interface]

/-- All roles in order. -/
def all : List Role :=
  ofEntity ++ ofCollection ++ ofContainer

/-- Every role is listed. -/
theorem mem_all (role : Role) : role ∈ all := by
  cases role with
  | request facet => cases facet <;> decide
  | requestBuilder facet => cases facet <;> decide
  | collectionPage facet => cases facet <;> decide
  | collectionRequest facet => cases facet <;> decide
  | collectionRequestBuilder facet => cases facet <;> decide
  | client facet => cases facet <;> decide
  | _ => decide

/-- The number of roles before a role. -/
def rank (role : Role) : Nat :=
  all.idxOf role

/-- Whether the role belongs to a collection-valued navigation property. -/
def isCollection (role : Role) : Bool :=
  ofCollection.contains role

/-! ## Facets -/

/-- The facet of a role; a role without facets does the work itself. -/
def facet : Role → Facet
  | dataType | collectionResponse => .implementation
  | request f | requestBuilder f | collectionPage f | collectionRequest f
  | collectionRequestBuilder f | client f => f

/-- Whether the role is an interface. -/
def isInterface (role : Role) : Bool :=
  role.facet = .interface

/-- The same role in another facet; a role without facets stays as it is. -/
def withFacet (f : Facet) : Role → Role
  | request _ => request f
  | requestBuilder _ => requestBuilder f
  | collectionPage _ => collectionPage f
  | collectionRequest _ => collectionRequest f
  | collectionRequestBuilder _ => collectionRequestBuilder f
  | client _ => client f
  | role => role

/-- The concrete role that a role describes or is. -/
def implementation (role : Role) : Role :=
  role.withFacet .implementation

/-- The interface of a role, if the role has facets. -/
def interface? (role : Role) : Option Role :=
  if (role.withFacet .interface).isInterface then some (role.withFacet .interface) else none

/-- Only the roles without facets have no interface. -/
theorem interface?_eq_none_iff (role : Role) :
    role.interface? = none ↔ role = dataType ∨ role = collectionResponse := by
  cases role <;> simp [interface?, withFacet, isInterface, facet]

/-- The interface of a role describes the implementation of that role. -/
theorem interface?_implementation {role face : Role} (h : role.interface? = some face) :
    face.implementation = role.implementation ∧ face.isInterface = true := by
  cases role <;>
    simp only [interface?, withFacet, isInterface, facet, reduceCtorEq, decide_true,
      decide_false, if_true, Bool.false_eq_true, if_false, Option.some.injEq] at h <;>
    subst h <;> exact ⟨rfl, rfl⟩

/-! ## Spellings -/

/-- What the name of a declaration ends in. -/
def suffix : Role → String
  | dataType => ""
  | request _ => "Request"
  | requestBuilder _ => "RequestBuilder"
  | collectionPage _ => "Page"
  | collectionRequest _ => "Request"
  | collectionRequestBuilder _ => "RequestBuilder"
  | collectionResponse => "Response"
  | client _ => ""

/-- The name of a role apart from its facet. -/
def stem : Role → String
  | dataType => "type"
  | request _ => "request"
  | requestBuilder _ => "request-builder"
  | collectionPage _ => "collection-page"
  | collectionRequest _ => "collection-request"
  | collectionRequestBuilder _ => "collection-request-builder"
  | collectionResponse => "collection-response"
  | client _ => "client"

/-- The name of a role in messages. -/
def text (role : Role) : String :=
  if role.isInterface then role.stem ++ "-interface" else role.stem

/-- The role of a name. -/
def ofText? (s : String) : Option Role :=
  all.find? fun role => role.text = s

/-- A role is found again by its name. -/
theorem ofText?_text (role : Role) : ofText? role.text = some role := by
  cases role with
  | request f => cases f <;> decide
  | requestBuilder f => cases f <;> decide
  | collectionPage f => cases f <;> decide
  | collectionRequest f => cases f <;> decide
  | collectionRequestBuilder f => cases f <;> decide
  | client f => cases f <;> decide
  | _ => decide

/-- The facets of a role have the same suffix. -/
@[simp] theorem suffix_withFacet (role : Role) (f : Facet) :
    (role.withFacet f).suffix = role.suffix := by
  cases role <;> rfl

end Role

end SdkHeaders
