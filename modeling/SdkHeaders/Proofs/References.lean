import SdkHeaders.Proofs.Dependencies
import SdkHeaders.Proofs.Generation
import SdkHeaders.Proofs.NameCharacters

/-!
# References between headers

The type names that a header is made to depend on, by what they refer to, and the
declarations that these references lead to.

Main results:

- Relation `Refers` lists what the header of an element in a role may refer to.
- Theorem `Rendered.refers`: a header depends on nothing else, and by theorem
  `Rendered.exists_of_mem_includes` it includes no other header in quotes.
- Structure `Model.NamesFreeOf` says that no name of a model holds one of some signs, and theorem
  `Refers.freeOf` that no declared name that a header refers to does.
- Theorems `Naming.typeName_class`, `Naming.builderName_class` and
  `Naming.linkedBuilder_of_collection`: a reference spells the name that its declaration has.
-/

namespace SdkHeaders

open Header

/-! ## What a header may refer to -/

/-- What the header of an element in a role may refer to in a model. -/
inductive Refers (model : Model) (target : Target) : Element → Role → TypeName → Prop
  /-- A library name with a header. -/
  | library {element : Element} {role : Role} {s : String}
      (h : s ∈ Cpp.systemHeaders.map Prod.fst) : Refers model target element role (.system s)
  /-- A type of the framework. -/
  | framework {element : Element} {role : Role} {x : String} (h : x ∈ Cpp.frameworkTypes) :
      Refers model target element role (.user x)
  /-- The integer type of an enumeration. -/
  | integer {e : EnumDecl} :
      Refers model target (.ofEnum e) .dataType (.system e.intType.spelling)
  /-- The primitive type of a property. -/
  | primitive {element : Element} {role : Role} {c : ClassDecl} {p : Property} {s : String}
      (hc : c ∈ model.classes) (hp : p ∈ c.properties) (h : target.primitive? p.type = some s) :
      Refers model target element role (.system s)
  /-- The declared type of a property. -/
  | declared {element : Element} {role : Role} {c : ClassDecl} {p : Property}
      (hc : c ∈ model.classes) (hp : p ∈ c.properties) (h : target.primitive? p.type = none) :
      Refers model target element role (.user (target.naming.typeName p.type))
  /-- The base of a class. -/
  | base {c : ClassDecl} {b : String} (hc : c ∈ model.classes) (hb : c.base = some b) :
      Refers model target (.ofClass c) .dataType (.user (target.naming.typeName b))
  /-- The declaration of the same element in another role. -/
  | sibling {element : Element} {role other : Role} (h : (element, other) ∈ model.bindings) :
      Refers model target element role (.user (target.naming.roleName element other))
  /-- The builder that a navigation property of an entity class leads to. -/
  | link {c : ClassDecl} {p : Property} {f g : Facet} (hc : c ∈ model.classes)
      (hkind : c.kind = .entity) (hp : p ∈ c.navigations) :
      Refers model target (.ofClass c) (.requestBuilder f)
        (.user (target.naming.linkedBuilder c p g))
  /-- The builder that a navigation property of a container leads to. -/
  | clientLink {c : ClassDecl} {p : Property} {f g : Facet} (hc : c ∈ model.classes)
      (hkind : c.kind = .container) (hp : p ∈ c.navigations) :
      Refers model target (.ofClass c) (.client f) (.user (target.naming.linkedBuilder c p g))
  /-- The builder for one item of a collection. -/
  | item {c : ClassDecl} {p : Property} {f g : Facet} (hc : c ∈ model.classes)
      (hp : p ∈ c.boundCollections) :
      Refers model target (.ofProperty c p) (.collectionRequestBuilder f)
        (.user (target.naming.itemBuilder p g))

section Refers

variable {model : Model} {setting : Setting} {element : Element} {role : Role}

/-- A header may refer to the type of any property of a class. -/
theorem Refers.value {target : Target} {c : ClassDecl} {p : Property} (hc : c ∈ model.classes)
    (hp : p ∈ c.properties) : Refers model target element role (target.resolve p.type) := by
  unfold Target.resolve
  cases hprimitive : target.primitive? p.type with
  | some s => exact .primitive hc hp hprimitive
  | none => exact .declared hc hp hprimitive

/-- All names of a contract. -/
def Header.Contract.names (contract : Contract) : List TypeName :=
  contract.shared ++ contract.concrete ++
    (contract.frameworkInterface.names ++ contract.frameworkClass.names)

/-- The names that a facet depends on have a property if the interface and all names of the
contract have it. -/
theorem Header.Contract.forall_mem_dependencyNames {P : TypeName → Prop} {contract : Contract}
    {interface : String} (hinterface : P (.user interface))
    (hnames : ∀ n ∈ contract.names, P n) (f : Facet) :
    ∀ n ∈ contract.dependencyNames interface f, P n := by
  simp only [names, List.forall_mem_append] at hnames
  obtain ⟨⟨hshared, hconcrete⟩, hbase, hclass⟩ := hnames
  cases f with
  | interface =>
      rw [dependencyNames, List.forall_mem_append]
      exact ⟨hshared, hbase⟩
  | implementation =>
      rw [dependencyNames, List.forall_mem_append, List.forall_mem_append, List.forall_mem_cons]
      exact ⟨⟨hshared, hconcrete⟩, hinterface, hclass⟩

/-- The roles of a class come with their interfaces. -/
theorem ClassDecl.interface_mem_roles {c : ClassDecl} (h : role ∈ c.roles) :
    role.withFacet .interface ∈ c.roles := by
  have hcomplex : ∀ r ∈ [Role.dataType], r.withFacet .interface ∈ [Role.dataType] := by decide
  have hentity : ∀ r ∈ Role.ofEntity, r.withFacet .interface ∈ Role.ofEntity := by decide
  have hcontainer : ∀ r ∈ Role.ofContainer, r.withFacet .interface ∈ Role.ofContainer := by
    decide
  unfold roles at h ⊢
  cases hkind : c.kind with
  | complex => exact hcomplex role (by simpa only [hkind] using h)
  | entity => exact hentity role (by simpa only [hkind] using h)
  | container => exact hcontainer role (by simpa only [hkind] using h)

/-- The roles of a collection come with their interfaces. -/
theorem Role.interface_mem_ofCollection (h : role ∈ ofCollection) :
    role.withFacet .interface ∈ ofCollection := by
  have hall : ∀ r ∈ ofCollection, r.withFacet .interface ∈ ofCollection := by decide
  exact hall role h

/-- An element that plays a role also plays the interface of the role. -/
theorem Model.interface_mem_bindings (h : (element, role) ∈ model.bindings) :
    (element, role.withFacet .interface) ∈ model.bindings := by
  cases element with
  | ofEnum e =>
      obtain ⟨he, rfl⟩ := mem_bindings_ofEnum.mp h
      exact h
  | ofClass c =>
      obtain ⟨hc, hrole⟩ := mem_bindings_ofClass.mp h
      exact mem_bindings_ofClass.mpr ⟨hc, ClassDecl.interface_mem_roles hrole⟩
  | ofProperty c p =>
      obtain ⟨hc, hp, hrole⟩ := mem_bindings_ofProperty.mp h
      exact mem_bindings_ofProperty.mpr ⟨hc, hp, Role.interface_mem_ofCollection hrole⟩

/-- The accessors of a class depend on library names, the framework and linked builders. -/
theorem navigationNames_refer {c : ClassDecl}
    (hlink : ∀ p ∈ c.navigations, ∀ g, Refers model setting.target element role
      (.user (setting.target.naming.linkedBuilder c p g))) :
    (∀ n ∈ navigationShared setting.target.naming c,
        Refers model setting.target element role n) ∧
      ∀ n ∈ navigationConcrete setting.target.naming c,
        Refers model setting.target element role n := by
  constructor
  · intro n hn
    obtain ⟨p, hp, hn⟩ := List.mem_flatMap.mp hn
    simp only [List.mem_cons, List.not_mem_nil, or_false] at hn
    rcases hn with rfl | rfl
    · exact .library (by decide)
    · exact hlink p hp .interface
  · intro n hn
    obtain ⟨p, hp, hn⟩ := List.mem_flatMap.mp hn
    simp only [List.mem_cons, List.not_mem_nil, or_false] at hn
    rcases hn with rfl | rfl | rfl | rfl
    · exact .library (by decide)
    · exact .library (by decide)
    · exact .framework (by decide)
    · exact hlink p hp .implementation

/-- The constructor of requests depends on library names and the framework. -/
theorem requestConstructorNames_refer :
    ∀ n ∈ requestConstructorNames, Refers model setting.target element role n := by
  simp only [requestConstructorNames, List.forall_mem_cons, List.not_mem_nil, false_implies,
    implies_true, and_true]
  exact ⟨.library (by decide), .framework (by decide)⟩

/-- The request for an object of a class depends on what its header may refer to. -/
theorem requestContract_refers {c : ClassDecl} {f : Facet}
    (hmem : (.ofClass c, .request f) ∈ model.bindings) :
    ∀ n ∈ (requestContract setting.target.naming c).names,
      Refers model setting.target (.ofClass c) (.request f) n := by
  obtain ⟨hc, hrole⟩ := Model.mem_bindings_ofClass.mp hmem
  have hdata : (.ofClass c, .dataType) ∈ model.bindings :=
    Model.mem_bindings_ofClass.mpr ⟨hc, ClassDecl.dataType_mem_roles.mpr
      (by simp [ClassDecl.request_mem_roles.mp hrole])⟩
  unfold Contract.names requestContract
  simp only [TypeExpr.user, TypeExpr.names, List.forall_mem_append, List.forall_mem_cons,
    List.not_mem_nil, false_implies, implies_true, and_true]
  exact ⟨⟨⟨.library (by decide), .library (by decide), .sibling hdata⟩, .library (by decide),
    requestConstructorNames_refer⟩, .framework (by decide), .framework (by decide)⟩

/-- The request builder of a class depends on what its header may refer to. -/
theorem requestBuilderContract_refers {c : ClassDecl} {f : Facet}
    (hmem : (.ofClass c, .requestBuilder f) ∈ model.bindings) :
    ∀ n ∈ (requestBuilderContract setting.target.naming c).names,
      Refers model setting.target (.ofClass c) (.requestBuilder f) n := by
  obtain ⟨hc, hrole⟩ := Model.mem_bindings_ofClass.mp hmem
  have hkind : c.kind = .entity := ClassDecl.requestBuilder_mem_roles.mp hrole
  have hrequest : ∀ g, (.ofClass c, .request g) ∈ model.bindings := fun g =>
    Model.mem_bindings_ofClass.mpr ⟨hc, ClassDecl.request_mem_roles.mpr hkind⟩
  have hlink : ∀ p ∈ c.navigations, ∀ g, Refers model setting.target (.ofClass c)
      (.requestBuilder f) (.user (setting.target.naming.linkedBuilder c p g)) :=
    fun p hp g => .link hc hkind hp
  obtain ⟨hshared, hconcrete⟩ := navigationNames_refer hlink
  unfold Contract.names requestBuilderContract
  simp only [TypeExpr.user, TypeExpr.names, List.forall_mem_append, List.forall_mem_cons,
    List.not_mem_nil, false_implies, implies_true, and_true]
  exact ⟨⟨⟨.library (by decide), .sibling (hrequest _), hshared⟩,
    ⟨.library (by decide), .sibling (hrequest _), requestConstructorNames_refer⟩, hconcrete⟩,
    .framework (by decide), .framework (by decide)⟩

/-- The client of a container depends on what its header may refer to. -/
theorem clientContract_refers {c : ClassDecl} {f : Facet}
    (hmem : (.ofClass c, .client f) ∈ model.bindings) :
    ∀ n ∈ (clientContract setting c).names,
      Refers model setting.target (.ofClass c) (.client f) n := by
  obtain ⟨hc, hrole⟩ := Model.mem_bindings_ofClass.mp hmem
  have hkind : c.kind = .container := ClassDecl.client_mem_roles.mp hrole
  have hlink : ∀ p ∈ c.navigations, ∀ g, Refers model setting.target (.ofClass c)
      (.client f) (.user (setting.target.naming.linkedBuilder c p g)) :=
    fun p hp g => .clientLink hc hkind hp
  obtain ⟨hshared, hconcrete⟩ := navigationNames_refer hlink
  unfold Contract.names clientContract
  simp only [TypeExpr.user, TypeExpr.names, List.forall_mem_append, List.forall_mem_cons,
    List.not_mem_nil, false_implies, implies_true, and_true]
  exact ⟨⟨hshared, ⟨.library (by decide), .library (by decide), .framework (by decide),
    .framework (by decide), .framework (by decide)⟩, hconcrete⟩, .framework (by decide),
    .framework (by decide)⟩

/-- The pages of a collection depend on what their header may refer to. -/
theorem pageContract_refers {c : ClassDecl} {p : Property}
    (hmem : (.ofProperty c p, role) ∈ model.bindings) :
    ∀ n ∈ (pageContract setting.target c p).names,
      Refers model setting.target (.ofProperty c p) role n := by
  obtain ⟨hc, hp, -⟩ := Model.mem_bindings_ofProperty.mp hmem
  have hproperty := (ClassDecl.mem_boundCollections_iff.mp hp).2.1
  unfold Contract.names pageContract
  simp only [Property.elementType, TypeExpr.userOf, TypeExpr.names, List.forall_mem_append,
    List.forall_mem_cons, List.not_mem_nil, false_implies, implies_true, and_true]
  exact ⟨⟨.value hc hproperty, .library (by decide), .library (by decide),
    .library (by decide)⟩, ⟨.framework (by decide), .value hc hproperty⟩,
    .framework (by decide), .value hc hproperty⟩

/-- The request for a collection depends on what its header may refer to. -/
theorem collectionRequestContract_refers {c : ClassDecl} {p : Property}
    (hmem : (.ofProperty c p, role) ∈ model.bindings) :
    ∀ n ∈ (collectionRequestContract setting.target c p).names,
      Refers model setting.target (.ofProperty c p) role n := by
  obtain ⟨hc, hp, -⟩ := Model.mem_bindings_ofProperty.mp hmem
  have hproperty := (ClassDecl.mem_boundCollections_iff.mp hp).2.1
  have hresponse : (.ofProperty c p, .collectionResponse) ∈ model.bindings :=
    Model.mem_bindings_ofProperty.mpr ⟨hc, hp, by decide⟩
  unfold Contract.names collectionRequestContract
  simp only [TypeExpr.user, TypeExpr.names, List.forall_mem_append, List.forall_mem_cons,
    List.not_mem_nil, false_implies, implies_true, and_true]
  exact ⟨⟨⟨.value hc hproperty, .library (by decide), .library (by decide),
    .sibling hresponse⟩, .library (by decide), requestConstructorNames_refer⟩,
    .framework (by decide), .framework (by decide)⟩

/-- The request builder for a collection depends on what its header may refer to. -/
theorem collectionRequestBuilderContract_refers {c : ClassDecl} {p : Property} {f : Facet}
    (hmem : (.ofProperty c p, .collectionRequestBuilder f) ∈ model.bindings) :
    ∀ n ∈ (collectionRequestBuilderContract setting.target c p).names,
      Refers model setting.target (.ofProperty c p) (.collectionRequestBuilder f) n := by
  obtain ⟨hc, hp, -⟩ := Model.mem_bindings_ofProperty.mp hmem
  have hrequest : ∀ g, (.ofProperty c p, .collectionRequest g) ∈ model.bindings := fun g =>
    Model.mem_bindings_ofProperty.mpr ⟨hc, hp, by cases g <;> decide⟩
  unfold Contract.names collectionRequestBuilderContract
  simp only [TypeExpr.user, TypeExpr.names, List.forall_mem_append, List.forall_mem_cons,
    List.not_mem_nil, false_implies, implies_true, and_true]
  exact ⟨⟨⟨.library (by decide), .library (by decide), .sibling (hrequest _), .item hc hp⟩,
    .library (by decide), .sibling (hrequest _), .item hc hp, requestConstructorNames_refer⟩,
    .framework (by decide), .framework (by decide)⟩

/-- A contract depends on what its header may refer to. -/
theorem HasContract.refers {contract : Contract}
    (h : HasContract setting element role contract) (hmem : (element, role) ∈ model.bindings) :
    ∀ n ∈ contract.names, Refers model setting.target element role n := by
  cases h with
  | request => exact requestContract_refers hmem
  | requestBuilder => exact requestBuilderContract_refers hmem
  | client => exact clientContract_refers hmem
  | collectionPage => exact pageContract_refers hmem
  | collectionRequest => exact collectionRequestContract_refers hmem
  | collectionRequestBuilder => exact collectionRequestBuilderContract_refers hmem

/-- The functions that read objects depend on library names and the framework. -/
theorem readerNames_refer : ∀ n ∈ readerNames, Refers model setting.target element role n := by
  simp only [readerNames, List.forall_mem_cons, List.not_mem_nil, false_implies, implies_true,
    and_true]
  exact ⟨.library (by decide), .framework (by decide)⟩

/-- The data type of a class depends on what its header may refer to. -/
theorem dataNames_refer {c : ClassDecl} (hc : c ∈ model.classes) :
    ∀ n ∈ dataNames setting.target c,
      Refers model setting.target (.ofClass c) .dataType n := by
  rw [dataNames, List.forall_mem_append, List.forall_mem_append]
  refine ⟨⟨readerNames_refer, ?_⟩, ?_⟩
  · intro n hn
    obtain ⟨p, hp, hn⟩ := List.mem_flatMap.mp hn
    rcases List.mem_cons.mp hn with rfl | hn
    · exact .value hc hp
    · cases hcollection : p.collection with
      | false => simp [hcollection] at hn
      | true =>
          have hvector : n = .system Cpp.vector := by simpa [hcollection] using hn
          rw [hvector]
          exact .library (by decide)
  · unfold baseNames Naming.baseType
    cases hbase : c.base with
    | none =>
        simp only [Option.map_none, List.forall_mem_cons, List.not_mem_nil, false_implies,
          implies_true, and_true]
        exact ⟨.library (by decide), .library (by decide)⟩
    | some b =>
        simp only [Option.map_some, List.forall_mem_cons, List.not_mem_nil, false_implies,
          implies_true, and_true]
        exact .base hc hbase

/-- The data type of an enumeration depends on what its header may refer to. -/
theorem enumNames_refer (e : EnumDecl) :
    ∀ n ∈ enumNames e, Refers model setting.target (.ofEnum e) .dataType n := by
  have hflags : ∀ n ∈ if e.flags then [TypeName.system "std::underlying_type_t"] else [],
      Refers model setting.target (.ofEnum e) .dataType n := by
    intro n hn
    cases hflags : e.flags with
    | false => simp [hflags] at hn
    | true =>
        have hname : n = .system "std::underlying_type_t" := by simpa [hflags] using hn
        rw [hname]
        exact .library (by decide)
  simp only [enumNames, List.forall_mem_append, List.forall_mem_cons, List.not_mem_nil,
    false_implies, implies_true, and_true]
  exact ⟨⟨.integer, .library (by decide), .library (by decide), .framework (by decide)⟩, hflags⟩

/-- The header of a binding depends only on what it may refer to. -/
theorem Rendered.refers {names : List TypeName} {e : Entity}
    (h : Rendered setting element role names e) (hmem : (element, role) ∈ model.bindings) :
    ∀ n ∈ names, Refers model setting.target element role n := by
  cases h with
  | enumData e => exact enumNames_refer e
  | classData c => exact dataNames_refer (Model.mem_bindings_ofClass.mp hmem).1
  | response c p =>
      obtain ⟨hc, hp, -⟩ := Model.mem_bindings_ofProperty.mp hmem
      have hproperty := (ClassDecl.mem_boundCollections_iff.mp hp).2.1
      simp only [responseNames, List.forall_mem_cons]
      exact ⟨.value hc hproperty, .library (by decide), .library (by decide),
        readerNames_refer⟩
  | facet hcontract =>
      exact Contract.forall_mem_dependencyNames
        (.sibling (Model.interface_mem_bindings hmem)) (hcontract.refers hmem) role.facet

/-- A header in quotes is that of a name that the header is made to depend on. -/
theorem Rendered.exists_of_mem_includes {names : List TypeName} {e : Entity} {target : Target}
    {header : String} (h : Rendered setting element role names e)
    (hheader : header ∈ (e.includes target).user.toList) :
    ∃ x, .user x ∈ names ∧ target.headerFile x = header := by
  obtain ⟨-, -, hdependencies⟩ := h.spec
  obtain ⟨x, hx, hfile⟩ := Dependencies.mem_user_includes.mp hheader
  rw [hdependencies, Dependencies.mem_user_foldl_add] at hx
  rcases hx with hx | hx
  · exact ⟨x, hx.1, hfile⟩
  · simp [Dependencies.new, Text.NameSet.empty] at hx

end Refers

/-! ## Signs in references -/

section Signs

open Text

variable {marks : List Char}

/-- The names in a model and the types of its properties hold none of some characters. -/
structure Model.NamesFreeOf (marks : List Char) (model : Model) : Prop where
  enums : ∀ e ∈ model.enums, FreeOf marks e.name
  classes : ∀ c ∈ model.classes, FreeOf marks c.name
  bases : ∀ c ∈ model.classes, ∀ b ∈ c.base.toList, FreeOf marks b
  properties : ∀ c ∈ model.classes, ∀ p ∈ c.properties, FreeOf marks p.name ∧ FreeOf marks p.type

variable {model : Model} {target : Target} {element : Element} {role : Role}

theorem Model.NamesFreeOf.of_bound (h : model.NamesFreeOf marks)
    (hmem : (element, role) ∈ model.bindings) : ∀ name ∈ element.names, FreeOf marks name := by
  cases element with
  | ofEnum e => exact List.forall_mem_singleton.mpr (h.enums e (mem_bindings_ofEnum.mp hmem).1)
  | ofClass c =>
      exact List.forall_mem_singleton.mpr (h.classes c (mem_bindings_ofClass.mp hmem).1)
  | ofProperty c p =>
      obtain ⟨hc, hp, -⟩ := mem_bindings_ofProperty.mp hmem
      have hproperty := h.properties c hc p (ClassDecl.mem_boundCollections_iff.mp hp).2.1
      exact List.forall_mem_cons.mpr
        ⟨h.classes c hc, List.forall_mem_singleton.mpr hproperty.1⟩

/-- The declared names that a header refers to hold none of the signs that neither the names of the
model nor those of the framework hold. -/
theorem Refers.freeOf (hnaming : target.naming.Keeps marks) (hmodel : model.NamesFreeOf marks)
    (hframework : ∀ x ∈ Cpp.frameworkTypes, FreeOf marks x) {x : String}
    (h : Refers model target element role (.user x)) : FreeOf marks x := by
  cases h with
  | framework hx => exact hframework x hx
  | declared hc hp _ => exact hnaming.typeName (hmodel.properties _ hc _ hp).2
  | base hc hb => exact hnaming.typeName (hmodel.bases _ hc _ (by simp [hb]))
  | sibling hmem => exact hnaming.roleName (hmodel.of_bound hmem) _
  | link hc _ hp =>
      have hproperty := hmodel.properties _ hc _ (ClassDecl.mem_navigations_iff.mp hp).1
      exact hnaming.linkedBuilder (hmodel.classes _ hc) hproperty.1 hproperty.2 _
  | clientLink hc _ hp =>
      have hproperty := hmodel.properties _ hc _ (ClassDecl.mem_navigations_iff.mp hp).1
      exact hnaming.linkedBuilder (hmodel.classes _ hc) hproperty.1 hproperty.2 _
  | item hc hp =>
      have hp := (ClassDecl.mem_boundCollections_iff.mp hp).2.1
      exact hnaming.itemBuilder (hmodel.properties _ hc _ hp).2 _

end Signs

/-! ## Where references lead -/

namespace Naming

variable {naming : Naming}

/-- The type name of an enumeration is the name of its data type. -/
theorem typeName_enum (e : EnumDecl) :
    naming.typeName e.name = naming.roleName (.ofEnum e) .dataType := by
  simp [typeName, roleName, faceted, baseName, Role.facet, Role.suffix]

/-- The type name of a class is the name of its data type. -/
theorem typeName_class (c : ClassDecl) :
    naming.typeName c.name = naming.roleName (.ofClass c) .dataType := by
  simp [typeName, roleName, faceted, baseName, Role.facet, Role.suffix]

/-- The builder called after a class is the request builder of the class. -/
theorem builderName_class (c : ClassDecl) (f : Facet) :
    naming.builderName f (naming.toType c.name) =
      naming.roleName (.ofClass c) (.requestBuilder f) :=
  rfl

/-- A collection leads to the request builder of the collection. -/
theorem linkedBuilder_of_collection {c : ClassDecl} {p : Property} (f : Facet)
    (h : p.collection = true) :
    naming.linkedBuilder c p f =
      naming.roleName (.ofProperty c p) (.collectionRequestBuilder f) := by
  rw [linkedBuilder, linkedName, if_pos h]
  rfl

/-- A single-valued property of a container leads to the builder called after its type. -/
theorem linkedBuilder_of_container {c : ClassDecl} {p : Property} (f : Facet)
    (h : p.collection = false) (hkind : c.kind = .container) :
    naming.linkedBuilder c p f = naming.builderName f (naming.toType p.type) := by
  simp [linkedBuilder, linkedName, h, hkind]

/-- A single-valued property of another class leads to the builder called after itself. -/
theorem linkedBuilder_of_single {c : ClassDecl} {p : Property} (f : Facet)
    (h : p.collection = false) (hkind : c.kind ≠ .container) :
    naming.linkedBuilder c p f = naming.builderName f (naming.toType p.name) := by
  simp [linkedBuilder, linkedName, h, hkind]

end Naming

end SdkHeaders
