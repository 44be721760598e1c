import SdkHeaders.Model.OrderedMap

/-!
# Service models

The abstract data model of a service: its enumerations and classes with their properties, as
read from a model file and as assembled into a model.

Main definitions:

- Structures `EnumDecl` and `ClassDecl` declare an enumeration and a class.
- Structure `ModelFile` holds what a model file declares, and structure `Model` holds the
  declarations by name.
- Definitions `Model.addEnum` and `Model.addClass` add a declaration; a class becomes the
  owner of its properties.
-/

namespace SdkHeaders

/-! ## Enumerations -/

/-- A member of an enumeration. -/
structure EnumMember where
  /-- The name of the member. -/
  name : String
  /-- The explicit value, if one is given. -/
  value : Option Int
  deriving DecidableEq, Repr

/-- An enumeration of a service model. -/
structure EnumDecl where
  /-- The name of the enumeration. -/
  name : String
  /-- Whether members combine bitwise instead of excluding each other. -/
  flags : Bool
  /-- The members in declaration order. -/
  members : List EnumMember
  deriving DecidableEq, Repr

/-! ## Classes -/

/-- How a class takes part in the generated headers. -/
inductive ClassKind where
  /-- An addressable resource with requests and builders of its own. -/
  | entity
  /-- A value type embedded in other classes. -/
  | complex
  /-- The service root whose navigation properties become the client. -/
  | container
  deriving DecidableEq, Repr

/-- The spelling of a class kind in model files and messages. -/
def ClassKind.text : ClassKind → String
  | .entity => "entity"
  | .complex => "complex"
  | .container => "container"

/-- A property of a class. -/
structure Property where
  /-- The name of the property. -/
  name : String
  /-- The name of the value type; for collections the type of one element. -/
  type : String
  /-- Whether the property holds many values. -/
  collection : Bool
  /-- Whether the property leads to another addressable class. -/
  navigation : Bool
  /-- The documentation text, if there is one. -/
  description : Option String
  /-- The name of the class that the property belongs to. -/
  owner : String
  deriving DecidableEq, Repr

/-- A class of a service model. -/
structure ClassDecl where
  /-- The name of the class. -/
  name : String
  /-- How the class is used. -/
  kind : ClassKind
  /-- The name of the class it derives from, if there is one. -/
  base : Option String
  /-- The properties in declaration order. -/
  properties : List Property
  deriving DecidableEq, Repr

namespace ClassDecl

/-- The properties that lead to another class. -/
def navigations (c : ClassDecl) : List Property :=
  c.properties.filter (·.navigation)

/-- The navigation properties that lead to many objects. -/
def collectionNavigations (c : ClassDecl) : List Property :=
  c.navigations.filter (·.collection)

/-- The class as the owner of all its properties. -/
def ownProperties (c : ClassDecl) : ClassDecl :=
  { c with properties := c.properties.map fun p => { p with owner := c.name } }

end ClassDecl

/-! ## Models -/

/-- What a model file declares. -/
structure ModelFile where
  /-- The dotted service namespace. -/
  space : String
  /-- The enumerations in file order. -/
  enums : List EnumDecl
  /-- The classes in file order. -/
  classes : List ClassDecl
  deriving DecidableEq, Repr

/-- A service model: its declarations by name, in the order they were first added. -/
structure Model where
  /-- The dotted service namespace. -/
  space : String
  /-- The enumerations by name. -/
  enumMap : OrderedMap EnumDecl
  /-- The classes by name. -/
  classMap : OrderedMap ClassDecl
  deriving DecidableEq, Repr

namespace Model

/-- The model of a namespace without declarations. -/
def new (space : String) : Model :=
  ⟨space, .empty, .empty⟩

/-- Add an enumeration, replacing one of the same name at its place. -/
def addEnum (model : Model) (e : EnumDecl) : Model :=
  { model with enumMap := model.enumMap.insert e.name e }

/-- Add a class as the owner of its properties, replacing one of the same name at its
place. -/
def addClass (model : Model) (c : ClassDecl) : Model :=
  { model with classMap := model.classMap.insert c.name c.ownProperties }

/-- The enumerations in order. -/
def enums (model : Model) : List EnumDecl :=
  model.enumMap.values

/-- The classes in order. -/
def classes (model : Model) : List ClassDecl :=
  model.classMap.values

/-- The class of a name. -/
def class? (model : Model) (name : String) : Option ClassDecl :=
  model.classMap.get? name

/-- The enumeration of a name. -/
def enum? (model : Model) (name : String) : Option EnumDecl :=
  model.enumMap.get? name

/-- The service root: the first class of kind container. -/
def container? (model : Model) : Option ClassDecl :=
  model.classes.find? fun c => c.kind = .container

/-- The model that a model file declares. -/
def ofFile (file : ModelFile) : Model :=
  file.classes.foldl addClass (file.enums.foldl addEnum (new file.space))

end Model

end SdkHeaders
