import SdkHeaders.Header.Entity

/-!
# Interfaces and implementations

The two facets of a role that comes with an interface.  Both are made from one contract, so
that the interface asks for the methods that the implementation defines.

Main results:

- Structure `Contract` holds what the facets share.
- Definitions `Contract.interfaceDeclaration` and `Contract.implementationDeclaration` make
  the two declarations.
- Theorems `Contract.prototypes_interfaceDeclaration` and
  `Contract.methods_implementationDeclaration` list what the interface asks for and what the
  implementation defines.
-/

namespace SdkHeaders.Header

/-- The tables and the address by which headers are made. -/
structure Setting where
  /-- The tables. -/
  target : Target
  /-- The address of the service. -/
  serviceUrl : String

/-- What the two facets of a role share. -/
structure Contract where
  /-- What the implementation is for. -/
  summary : String
  /-- The interface of the framework that the interface extends. -/
  frameworkInterface : TypeExpr
  /-- The class of the framework that the implementation extends. -/
  frameworkClass : TypeExpr
  /-- The constructors of the implementation: their parameters and initializers. -/
  constructors : List (List Parameter × Initializer)
  /-- The methods in order. -/
  methods : List Method
  /-- What both facets depend on. -/
  shared : List TypeName
  /-- What only the implementation depends on. -/
  concrete : List TypeName
  deriving DecidableEq, Repr

namespace Contract

/-- The summary of an interface, made from that of its implementation. -/
def interfaceSummary (summary : String) : String :=
  "An interface of " ++ Text.lowerFirst summary

/-- The declaration of the interface. -/
def interfaceDeclaration (c : Contract) (name : String) : Declaration where
  summary := interfaceSummary c.summary
  form := .ofInterface
  name := name
  bases := .ofInterface (some c.frameworkInterface)
  members :=
    .virtualDestructor name ::
      if c.methods.isEmpty then [] else [.prototypes (c.methods.map Method.signature)]

/-- The declaration of the implementation of an interface. -/
def implementationDeclaration (c : Contract) (name interface : String) : Declaration where
  summary := c.summary
  form := .ofClass true
  name := name
  bases := ⟨some (.user interface), some c.frameworkClass⟩
  members :=
    c.constructors.map (fun parts => .constructor name parts.1 parts.2) ++
      .destructor name :: c.methods.map Member.method

/-- The names that a facet depends on. -/
def dependencyNames (c : Contract) (interface : String) : Facet → List TypeName
  | .interface => c.shared ++ c.frameworkInterface.names
  | .implementation =>
      c.shared ++ c.concrete ++ .user interface :: c.frameworkClass.names

/-- The declaration of a facet. -/
def declaration (c : Contract) (name interface : String) : Facet → Declaration
  | .interface => c.interfaceDeclaration name
  | .implementation => c.implementationDeclaration name interface

/-- The entity of a facet of a role. -/
def entity (c : Contract) (role : Role) (name interface : String) : Entity where
  name := name
  role := role
  dependencies := (c.dependencyNames interface role.facet).foldl Dependencies.add (.new name)
  declaration := c.declaration name interface role.facet
  functions := []

/-- The interface asks for the methods of the contract. -/
theorem prototypes_interfaceDeclaration (c : Contract) (name : String) :
    (c.interfaceDeclaration name).prototypes = c.methods.map Method.signature := by
  unfold Declaration.prototypes interfaceDeclaration
  cases h : c.methods with
  | nil => simp [Member.prototypeList]
  | cons first rest => simp [Member.prototypeList]

/-- The implementation defines the methods of the contract. -/
theorem methods_implementationDeclaration (c : Contract) (name interface : String) :
    (c.implementationDeclaration name interface).methods = c.methods := by
  have hconstructors : ∀ l : List (List Parameter × Initializer),
      (l.map fun parts => Member.constructor name parts.1 parts.2).flatMap
        Member.methodList = [] := by
    intro l
    induction l with
    | nil => rfl
    | cons parts rest ih => simpa [Member.methodList] using ih
  have hmethods : ∀ l : List Method, (l.map Member.method).flatMap Member.methodList = l := by
    intro l
    induction l with
    | nil => rfl
    | cons m rest ih =>
        rw [List.map_cons, List.flatMap_cons, ih]
        rfl
  simp [Declaration.methods, implementationDeclaration, List.flatMap_append, hconstructors,
    hmethods, Member.methodList, List.flatMap_cons]

/-- The interface defines no method. -/
theorem methods_interfaceDeclaration (c : Contract) (name : String) :
    (c.interfaceDeclaration name).methods = [] := by
  unfold Declaration.methods interfaceDeclaration
  cases c.methods with
  | nil => rfl
  | cons first rest => rfl

/-- The implementation asks for no method. -/
theorem prototypes_implementationDeclaration (c : Contract) (name interface : String) :
    (c.implementationDeclaration name interface).prototypes = [] := by
  apply List.flatMap_eq_nil_iff.mpr
  intro m hm
  rcases List.mem_append.mp hm with hm | hm
  · obtain ⟨parts, -, rfl⟩ := List.mem_map.mp hm
    rfl
  · rcases List.mem_cons.mp hm with rfl | hm
    · rfl
    · obtain ⟨method, -, rfl⟩ := List.mem_map.mp hm
      rfl

end Contract

end SdkHeaders.Header
