import SdkHeaders.Proofs.Generation

/-!
# Mentioned names

The type names that a declaration mentions, and the proof that the dependencies of its header
cover them.  The interface and the implementation of a role are covered by what one contract
says about both.

Main results:

- Definition `Header.Declaration.mentions` lists the type names of a declaration.
- Structure `Header.Contract.Covered` says that the dependencies of a contract cover its
  methods and constructors, and theorem `HasContract.covered` shows it for every role.
- Theorem `Rendered.mentions_subset`: a header mentions only what it depends on.
-/

namespace SdkHeaders

open Header

/-! ## Mentioned names -/

/-- The type names in the form of a declaration. -/
def Header.Form.names : Form → List TypeName
  | .ofEnum underlying => underlying.names
  | .ofClass _ => []
  | .ofInterface => []

/-- The type names in a declaration and in its form. -/
def Header.Declaration.mentions (d : Declaration) : List TypeName :=
  d.form.names ++ d.names

/-! ## Contracts that cover their members -/

namespace Header.Contract

/-- The dependencies of a contract cover its members: the facets share what signatures mention,
apart from the empty type, and the implementation depends on what bodies and constructors
mention. -/
structure Covered (contract : Contract) : Prop where
  signatures : ∀ m ∈ contract.methods, m.signature.names ⊆ .system "void" :: contract.shared
  bodies : ∀ m ∈ contract.methods,
    m.body.flatMap Statement.names ⊆ contract.shared ++ contract.concrete
  constructors : ∀ parts ∈ contract.constructors,
    (parts.1.flatMap fun p => p.type.names) ++ parts.2.names ⊆
      contract.shared ++ contract.concrete ++ contract.frameworkClass.names

variable {contract : Contract} {name interface : String}

/-- The interface of a covered contract mentions only what it depends on. -/
theorem Covered.mentions_interface (h : contract.Covered) :
    (contract.interfaceDeclaration name).mentions ⊆
      .system "void" :: contract.dependencyNames interface .interface := by
  have hsignatures : (contract.methods.map Method.signature).flatMap Signature.names ⊆
      .system "void" :: contract.shared := by
    intro n hn
    obtain ⟨s, hs, hn⟩ := List.mem_flatMap.mp hn
    obtain ⟨m, hm, rfl⟩ := List.mem_map.mp hs
    exact h.signatures m hm hn
  have hmembers : (contract.interfaceDeclaration name).members.flatMap Member.names ⊆
      .system "void" :: contract.shared := by
    unfold interfaceDeclaration
    cases hmethods : contract.methods with
    | nil => simp [Member.names]
    | cons first rest => simpa [Member.names, hmethods] using hsignatures
  intro n hn
  rcases List.mem_append.mp hn with hform | hn
  · simp [interfaceDeclaration, Form.names] at hform
  rcases List.mem_append.mp hn with hbase | hmember
  · have hbase' : n ∈ contract.frameworkInterface.names := by
      simpa [interfaceDeclaration, BaseList.ofInterface, BaseList.toList] using hbase
    exact List.mem_cons_of_mem _ (List.mem_append_right _ hbase')
  · rcases List.mem_cons.mp (hmembers hmember) with hvoid | hshared
    · exact hvoid ▸ List.mem_cons_self
    · exact List.mem_cons_of_mem _ (List.mem_append_left _ hshared)

/-- The implementation of a covered contract mentions only what it depends on. -/
theorem Covered.mentions_implementation (h : contract.Covered) :
    (contract.implementationDeclaration name interface).mentions ⊆
      .system "void" :: contract.dependencyNames interface .implementation := by
  have hall : contract.shared ++ contract.concrete ++ contract.frameworkClass.names ⊆
      contract.dependencyNames interface .implementation :=
    List.append_subset.mpr ⟨List.subset_append_left _ _, fun n hn =>
      List.mem_append_right _ (List.mem_cons_of_mem _ hn)⟩
  intro n hn
  rcases List.mem_append.mp hn with hform | hn
  · simp [implementationDeclaration, Form.names] at hform
  rcases List.mem_append.mp hn with hbase | hmember
  · have hbase' : n = .user interface ∨ n ∈ contract.frameworkClass.names := by
      simpa [implementationDeclaration, BaseList.toList, TypeExpr.user, TypeExpr.names]
        using hbase
    exact List.mem_cons_of_mem _ (List.mem_append_right _ (List.mem_cons.mpr hbase'))
  · obtain ⟨member, hmem, hn⟩ := List.mem_flatMap.mp hmember
    simp only [implementationDeclaration, List.mem_append, List.mem_map, List.mem_cons] at hmem
    rcases hmem with ⟨parts, hparts, rfl⟩ | rfl | ⟨m, hm, rfl⟩
    · exact List.mem_cons_of_mem _ (hall (h.constructors parts hparts hn))
    · simp [Member.names] at hn
    · rcases List.mem_append.mp hn with hsignature | hbody
      · rcases List.mem_cons.mp (h.signatures m hm hsignature) with hvoid | hshared
        · exact hvoid ▸ List.mem_cons_self
        · have hshared' := List.mem_append_left contract.concrete hshared
          exact List.mem_cons_of_mem _ (hall (List.mem_append_left _ hshared'))
      · exact List.mem_cons_of_mem _ (hall (List.mem_append_left _ (h.bodies m hm hbody)))

/-- A facet of a covered contract mentions only what it depends on. -/
theorem Covered.mentions_subset (h : contract.Covered) (f : Facet) :
    (contract.declaration name interface f).mentions ⊆
      .system "void" :: contract.dependencyNames interface f := by
  cases f with
  | interface => exact h.mentions_interface
  | implementation => exact h.mentions_implementation

end Header.Contract

/-! ## The contracts of the roles -/

section Contracts

variable {naming : Naming} {target : Target} {setting : Setting} {c : ClassDecl} {p : Property}

/-- A contract with the constructor of requests covers it if the implementation depends on the
names of the constructor. -/
theorem requestConstructor_covered {contract : Contract}
    (hconstructors : contract.constructors = [requestConstructor contract.frameworkClass])
    (hnames : requestConstructorNames ⊆ contract.concrete) :
    ∀ parts ∈ contract.constructors,
      (parts.1.flatMap fun q => q.type.names) ++ parts.2.names ⊆
        contract.shared ++ contract.concrete ++ contract.frameworkClass.names := by
  have hcovered : ∀ base : TypeExpr,
      ((requestConstructor base).1.flatMap fun q => q.type.names) ++
        (requestConstructor base).2.names ⊆ requestConstructorNames ++ base.names := by
    intro base
    simp [requestConstructor, requestConstructorNames, Parameter.constReference,
      Parameter.reference, wideStringType, TypeExpr.system, TypeExpr.user, TypeExpr.names,
      Initializer.names, Argument.names]
  intro parts hparts
  rw [hconstructors, List.mem_singleton] at hparts
  subst hparts
  intro n hn
  rcases List.mem_append.mp (hcovered _ hn) with hn | hn
  · exact List.mem_append_left _ (List.mem_append_right _ (hnames hn))
  · exact List.mem_append_right _ hn

/-- The accessors of a class are covered by the names that they are said to depend on. -/
theorem navigationMethods_covered {transport : Transport} :
    ∀ m ∈ navigationMethods naming transport c,
      m.signature.names ⊆ navigationShared naming c ∧
        m.body.flatMap Statement.names ⊆ navigationConcrete naming c := by
  intro m hm
  obtain ⟨p, hp, rfl⟩ := List.mem_map.mp hm
  constructor
  · intro n hn
    refine List.mem_flatMap.mpr ⟨p, hp, ?_⟩
    simpa [navigationMethod, Signature.names, ownedPointer, TypeExpr.systemOf, TypeExpr.user,
      TypeExpr.names] using hn
  · intro n hn
    refine List.mem_flatMap.mpr ⟨p, hp, ?_⟩
    simp only [navigationMethod, Statement.names, TypeExpr.user, TypeExpr.names,
      List.flatMap_cons, List.flatMap_nil, List.mem_append, List.mem_cons, List.not_mem_nil]
      at hn ⊢
    tauto

/-- The method that makes a request is covered by pointers, the client and the request. -/
theorem createRequest_covered (request requestInterface : String) :
    (createRequest requestInterface request).signature.names ⊆
        [.system "std::unique_ptr", .user requestInterface] ∧
      (createRequest requestInterface request).body.flatMap Statement.names ⊆
        .system "std::make_unique" :: .user request :: requestConstructorNames := by
  simp [createRequest, Signature.names, Statement.names, ownedPointer, TypeExpr.systemOf,
    TypeExpr.user, TypeExpr.names, requestConstructorNames]

/-- An exchange mentions the protocol methods and the type of the answer. -/
theorem exchange_names (http result : String) (type : TypeExpr) (sends : Bool) :
    (exchange http type result sends).flatMap Statement.names =
      .system "web::http::methods" :: type.names := by
  simp [exchange, Statement.names]

/-- The method of a verb is covered by what requests need and the type of the object. -/
theorem verbMethod_covered (type : TypeExpr) (verb : Verb) :
    (verbMethod type verb).signature.names ⊆
        .system "void" :: .system "std::future" :: .system "pplx::cancellation_token" ::
          type.names ∧
      (verbMethod type verb).body.flatMap Statement.names ⊆
        .system "web::http::methods" :: type.names := by
  have htype : type.names ⊆ .system "void" :: .system "std::future" ::
      .system "pplx::cancellation_token" :: type.names := by
    intro n hn
    simp [hn]
  unfold verbMethod
  constructor
  · cases verb.returns <;> cases verb.sends <;>
      simp [Signature.names, futureOf, tokenParameter, entityParameter,
        Parameter.constReference, TypeExpr.systemOf, TypeExpr.system, TypeExpr.names, htype]
  · cases verb.returns with
    | false => simp [Statement.names]
    | true => simp [exchange_names]

/-- The request for an object of a class covers its members. -/
theorem requestContract_covered : (requestContract naming c).Covered where
  signatures := by
    intro m hm
    obtain ⟨verb, -, rfl⟩ := List.mem_map.mp hm
    unfold requestContract
    exact List.Subset.trans (verbMethod_covered _ verb).1
      (by simp [TypeExpr.user, TypeExpr.names])
  bodies := by
    intro m hm
    obtain ⟨verb, -, rfl⟩ := List.mem_map.mp hm
    unfold requestContract
    exact List.Subset.trans (verbMethod_covered _ verb).2
      (by simp [TypeExpr.user, TypeExpr.names])
  constructors := requestConstructor_covered rfl (List.subset_cons_self _ _)

/-- The request builder of a class covers its members. -/
theorem requestBuilderContract_covered : (requestBuilderContract naming c).Covered where
  signatures := by
    intro m hm n hn
    unfold requestBuilderContract at hm ⊢
    rcases List.mem_cons.mp hm with rfl | hm
    · have hcreate := (createRequest_covered _ _).1 hn
      simp only [List.mem_cons, List.not_mem_nil, or_false] at hcreate ⊢
      tauto
    · simp [(navigationMethods_covered m hm).1 hn]
  bodies := by
    intro m hm n hn
    unfold requestBuilderContract at hm ⊢
    rcases List.mem_cons.mp hm with rfl | hm
    · have hcreate := (createRequest_covered _ _).2 hn
      simp only [List.mem_cons, List.mem_append] at hcreate ⊢
      tauto
    · simp [(navigationMethods_covered m hm).2 hn]
  constructors := by
    refine requestConstructor_covered rfl ?_
    intro n hn
    unfold requestBuilderContract
    simp [hn]

/-- The client of a container covers its members. -/
theorem clientContract_covered : (clientContract setting c).Covered where
  signatures := by
    intro m hm n hn
    exact List.mem_cons_of_mem _ ((navigationMethods_covered m hm).1 hn)
  bodies := by
    intro m hm n hn
    unfold clientContract at hm ⊢
    simp [(navigationMethods_covered m hm).2 hn]
  constructors := by
    intro parts hparts n hn
    unfold clientContract at hparts ⊢
    simp only [clientConstructors, List.mem_cons, List.not_mem_nil, or_false] at hparts
    rcases hparts with rfl | rfl | rfl <;>
      simp only [providerParameters, sharedPointer, Parameter.constReference,
        Parameter.withDefault, wideStringType, TypeExpr.system, TypeExpr.systemOf,
        TypeExpr.user, TypeExpr.names, Initializer.names, Argument.names, List.flatMap_cons,
        List.flatMap_nil, List.mem_append, List.mem_cons, List.not_mem_nil] at hn ⊢ <;>
      tauto

/-- The pages of a collection cover their members. -/
theorem pageContract_covered : (pageContract target c p).Covered where
  signatures := by simp [pageContract]
  bodies := by simp [pageContract]
  constructors := by
    simp [pageContract, Property.elementType, Target.sequenceOf, Parameter.value, wideStringType,
      TypeExpr.system, TypeExpr.systemOf, TypeExpr.userOf, TypeExpr.names, Initializer.names,
      Argument.names]

/-- The request for a collection covers its members. -/
theorem collectionRequestContract_covered : (collectionRequestContract target c p).Covered where
  signatures := by
    simp [collectionRequestContract, getPage, addItem, Signature.names, futureOf, tokenParameter,
      entityParameter, Parameter.constReference, Property.elementType, TypeExpr.system,
      TypeExpr.systemOf, TypeExpr.user, TypeExpr.names]
  bodies := by
    simp [collectionRequestContract, getPage, addItem, exchange_names, Property.elementType,
      TypeExpr.user, TypeExpr.names]
  constructors := by
    refine requestConstructor_covered rfl ?_
    intro n hn
    simp [collectionRequestContract, hn]

/-- The request builder for a collection covers its members. -/
theorem collectionRequestBuilderContract_covered :
    (collectionRequestBuilderContract target c p).Covered where
  signatures := by
    simp [collectionRequestBuilderContract, createRequest, itemAccess, Signature.names,
      ownedPointer, Parameter.constReference, wideStringType, TypeExpr.system, TypeExpr.systemOf,
      TypeExpr.user, TypeExpr.names]
  bodies := by
    simp [collectionRequestBuilderContract, createRequest, itemAccess, Statement.names,
      requestConstructorNames, TypeExpr.user, TypeExpr.names]
  constructors := by
    refine requestConstructor_covered rfl ?_
    intro n hn
    simp [collectionRequestBuilderContract, hn]

/-- The contract of every role covers its members. -/
theorem HasContract.covered {element : Element} {role : Role} {contract : Contract}
    (h : HasContract setting element role contract) : contract.Covered := by
  cases h with
  | request => exact requestContract_covered
  | requestBuilder => exact requestBuilderContract_covered
  | client => exact clientContract_covered
  | collectionPage => exact pageContract_covered
  | collectionRequest => exact collectionRequestContract_covered
  | collectionRequestBuilder => exact collectionRequestBuilderContract_covered

end Contracts

/-! ## Data types and answers -/

section Data

variable {target : Target} {setting : Setting}

/-- A data member mentions only what it depends on. -/
theorem member_names_subset (p : Property) :
    (p.member target).names ⊆ p.memberNames target := by
  cases hcollection : p.collection <;>
    simp [Property.member, Member.names, Property.memberType, Property.memberNames, hcollection,
      Property.elementType, Target.sequenceOf, TypeExpr.systemOf, TypeExpr.names]

/-- The data type of a class mentions only what it depends on. -/
theorem mentions_classData (c : ClassDecl) :
    (c.dataEntity target).declaration.mentions ⊆ dataNames target c := by
  intro n hn
  rcases List.mem_append.mp hn with hform | hn
  · simp [ClassDecl.dataEntity, Form.names] at hform
  rcases List.mem_append.mp hn with hbase | hmember
  · refine List.mem_append_right _ ?_
    unfold baseNames
    cases hb : target.naming.baseType c with
    | none => simp [ClassDecl.dataEntity, BaseList.toList, hb] at hbase
    | some b =>
        simpa [ClassDecl.dataEntity, BaseList.toList, hb, TypeExpr.user, TypeExpr.names]
          using hbase
  · simp only [ClassDecl.dataEntity, memberFields, List.flatMap_append, List.mem_append]
      at hmember
    rcases hmember with hproperty | hroot
    · obtain ⟨member, hmem, hn⟩ := List.mem_flatMap.mp hproperty
      obtain ⟨p, hp, rfl⟩ := List.mem_map.mp hmem
      have hp' := List.mem_flatMap.mpr ⟨p, hp, member_names_subset p hn⟩
      exact List.mem_append_left _ (List.mem_append_right _ hp')
    · refine List.mem_append_right _ ?_
      cases hb : c.base with
      | none =>
          simpa [hb, rootMembers, Member.names, TypeExpr.system, TypeExpr.names, baseNames,
            Naming.baseType] using hroot
      | some b => simp [hb] at hroot

/-- The data type of an enumeration mentions only what it depends on. -/
theorem mentions_enumData (e : EnumDecl) :
    (e.dataEntity target).declaration.mentions ⊆ enumNames e := by
  cases hmembers : e.members <;>
    simp [EnumDecl.dataEntity, hmembers, Declaration.mentions, Form.names, Declaration.names,
      BaseList.empty, BaseList.toList, Member.names, TypeExpr.system, TypeExpr.names, enumNames]

/-- The answer with a page mentions only what it depends on. -/
theorem mentions_response (c : ClassDecl) (p : Property) :
    (responseEntity target c p).declaration.mentions ⊆ responseNames target p := by
  simp [responseEntity, Declaration.mentions, Form.names, Declaration.names, BaseList.empty,
    BaseList.toList, Member.names, Property.elementType, Target.sequenceOf, wideStringType,
    TypeExpr.system, TypeExpr.systemOf, TypeExpr.names, responseNames]

/-- Every header mentions only what it depends on, apart from the empty type. -/
theorem Rendered.mentions_subset {element : Element} {role : Role} {names : List TypeName}
    {e : Entity} (h : Rendered setting element role names e) :
    e.declaration.mentions ⊆ .system "void" :: names := by
  cases h with
  | enumData e => exact List.subset_cons_of_subset _ (mentions_enumData e)
  | classData c => exact List.subset_cons_of_subset _ (mentions_classData c)
  | response c p => exact List.subset_cons_of_subset _ (mentions_response c p)
  | facet hcontract => exact hcontract.covered.mentions_subset role.facet

end Data

end SdkHeaders
