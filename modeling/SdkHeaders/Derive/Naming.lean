import SdkHeaders.Derive.Element
import SdkHeaders.Text.Words

/-!
# Names of declarations

How the names of declarations and members are derived from the names of a model.  All
declarations that refer to each other use the same rules, so that a reference spells the
name that the declaration has.

Main results:

- Structure `Naming` holds the conventions of a language.
- Definition `Naming.roleName` names the declaration of an element in a role.
- Definitions `Naming.linkedBuilder` and `Naming.itemBuilder` name the builders that a
  navigation leads to.
- Theorem `Naming.safeName_of_not_reserved`: only reserved words are respelled.
-/

namespace SdkHeaders

/-- The naming conventions of a language. -/
structure Naming where
  /-- The spelling of a model name as the name of a type. -/
  toType : String → String
  /-- The spelling of a model name as the name of a member. -/
  toMember : String → String
  /-- The words that are no names in the language. -/
  reserved : List String
  /-- The spelling that stands for a reserved word. -/
  escape : String → String

namespace Naming

/-! ## Safe names -/

/-- Whether a word is reserved. -/
def isReserved (naming : Naming) (word : String) : Bool :=
  naming.reserved.contains word

/-- The name itself, or the spelling that stands for a reserved word. -/
def safeName (naming : Naming) (name : String) : String :=
  if naming.isReserved name then naming.escape name else name

/-- The type name of a model name. -/
def typeName (naming : Naming) (name : String) : String :=
  naming.safeName (naming.toType name)

/-- The member name of a model name. -/
def memberName (naming : Naming) (name : String) : String :=
  naming.safeName (naming.toMember name)

/-- The name of an enumerator. -/
def enumeratorName (naming : Naming) (name : String) : String :=
  naming.typeName name

/-- A word that is not reserved is left alone. -/
theorem safeName_of_not_reserved {naming : Naming} {name : String}
    (h : naming.isReserved name = false) : naming.safeName name = name := by
  simp [safeName, h]

/-! ## Declarations -/

/-- The name of a property's collection, which includes the owner of the property. -/
def collectionName (naming : Naming) (owner : ClassDecl) (p : Property) : String :=
  naming.toType owner.name ++ naming.toType p.name ++ "Collection"

/-- The common part of the names of all declarations of an element. -/
def baseName (naming : Naming) : Element → String
  | .ofProperty owner p => naming.collectionName owner p
  | .ofClass c => naming.toType c.name
  | .ofEnum e => naming.toType e.name

/-- The name of a facet: interfaces have a leading capital i. -/
def faceted (facet : Facet) (name : String) : String :=
  match facet with
  | .interface => "I" ++ name
  | .implementation => name

/-- The name of the declaration of an element in a role. -/
def roleName (naming : Naming) (element : Element) (role : Role) : String :=
  naming.safeName (faceted role.facet (naming.baseName element ++ role.suffix))

/-- The name of the declaration of a descriptor. -/
def descriptorName (naming : Naming) (d : Descriptor) : String :=
  naming.roleName d.element d.role

/-! ## References -/

/-- The type name of the base of a class. -/
def baseType (naming : Naming) (c : ClassDecl) : Option String :=
  c.base.map naming.typeName

/-- The name of what a navigation property leads to.  Collections lead to a collection of
their own, the container leads to the class of the property, and other classes lead to what
the property is called. -/
def linkedName (naming : Naming) (owner : ClassDecl) (p : Property) : String :=
  if p.collection then naming.collectionName owner p
  else if owner.kind = .container then naming.toType p.type
  else naming.toType p.name

/-- The name of the request builder for a base name. -/
def builderName (naming : Naming) (facet : Facet) (base : String) : String :=
  naming.safeName (faceted facet (base ++ "RequestBuilder"))

/-- The name of the request builder that a navigation property leads to. -/
def linkedBuilder (naming : Naming) (owner : ClassDecl) (p : Property) (facet : Facet) :
    String :=
  naming.builderName facet (naming.linkedName owner p)

/-- The name of the request builder for one item of a collection. -/
def itemBuilder (naming : Naming) (p : Property) (facet : Facet) : String :=
  naming.builderName facet (naming.toType p.type)

/-- The name of the method that follows a navigation property. -/
def methodName (naming : Naming) (p : Property) : String :=
  naming.typeName p.name

end Naming

end SdkHeaders
