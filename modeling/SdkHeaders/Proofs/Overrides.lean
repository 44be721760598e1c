import SdkHeaders.Proofs.DeclarationText

/-!
# Interfaces and their implementations

What an interface asks for and what its implementation defines.

Main results:

- Structure `Implements` says that an implementation carries out an interface, and theorem
  `HasContract.implements` that the facets of a contract do.
- Theorem `facets_agree`: an implementation defines what its interface asks for, in the same
  order, and names the interface as its first base.
-/

namespace SdkHeaders

open Header Text

/-! ## The two facets of a role -/

/-- The lists of roles hold both facets of a role or none of them. -/
theorem Role.contains_withFacet (role : Role) (f : Facet) :
    ∀ roles ∈ [ofEntity, ofCollection, ofContainer],
      roles.contains (role.withFacet f) = roles.contains role := by
  cases role with
  | dataType | collectionResponse => exact fun _ _ => rfl
  | request g | requestBuilder g | collectionPage g | collectionRequest g
  | collectionRequestBuilder g | client g => cases f <;> cases g <;> decide

/-- An element that accepts a role accepts it in both facets. -/
theorem Element.accepts_withFacet (element : Element) (role : Role) (f : Facet) :
    element.accepts (role.withFacet f) = element.accepts role := by
  have hlists := role.contains_withFacet f
  cases element with
  | ofEnum e => cases role <;> rfl
  | ofClass c =>
      cases hkind : c.kind with
      | complex => cases role <;> simp [accepts, hkind, Role.withFacet]
      | entity => simpa only [accepts, hkind] using hlists Role.ofEntity (by simp)
      | container => simpa only [accepts, hkind] using hlists Role.ofContainer (by simp)
  | ofProperty owner p =>
      have hcollection := hlists Role.ofCollection (by simp)
      exact congrArg (fun b => b && p.collection && p.navigation) hcollection

theorem withFacet_spec {role face : Role} (h : role.interface? = some face) :
    face = role.withFacet .interface ∧ ∀ f, (role.withFacet f).facet = f := by
  cases role <;>
    simp only [Role.interface?, Role.withFacet, Role.isInterface, Role.facet, reduceCtorEq,
      decide_true, decide_false, if_true, Bool.false_eq_true, if_false, Option.some.injEq] at h <;>
    exact ⟨h.symm, fun _ => rfl⟩

theorem withFacet_withFacet (role : Role) (f g : Facet) :
    (role.withFacet f).withFacet g = role.withFacet g := by
  cases role <;> rfl

/-- Both facets of a role have one contract. -/
theorem exists_contract (setting : Setting) {element : Element} {role face : Role}
    (hface : role.interface? = some face) (haccepts : element.accepts role = true) :
    ∃ contract, ∀ f, HasContract setting element (role.withFacet f) contract := by
  have hnone := (not_congr role.interface?_eq_none_iff).mp (by simp [hface])
  cases element with
  | ofEnum e =>
      simp only [Element.accepts, decide_eq_true_eq] at haccepts
      exact absurd (Or.inl haccepts) hnone
  | ofClass c =>
      have hcollection := Descriptor.isCollection_eq_false haccepts
      cases role with
      | request g => exact ⟨_, fun f => .request c f⟩
      | requestBuilder g => exact ⟨_, fun f => .requestBuilder c f⟩
      | client g => exact ⟨_, fun f => .client c f⟩
      | dataType => exact absurd (Or.inl rfl) hnone
      | collectionResponse => exact absurd (Or.inr rfl) hnone
      | _ g => cases g <;> cases hcollection
  | ofProperty owner p =>
      simp only [Element.accepts, Bool.and_eq_true] at haccepts
      have hcollection := haccepts.1.1
      cases role with
      | collectionPage g => exact ⟨_, fun f => .collectionPage owner p f⟩
      | collectionRequest g => exact ⟨_, fun f => .collectionRequest owner p f⟩
      | collectionRequestBuilder g => exact ⟨_, fun f => .collectionRequestBuilder owner p f⟩
      | dataType => exact absurd (Or.inl rfl) hnone
      | collectionResponse => exact absurd (Or.inr rfl) hnone
      | _ g => cases g <;> cases hcollection

/-- An implementation and its interface.  The interface asks for what the implementation defines,
in the same order, and it is the first base of the implementation.  The methods can
be read off the texts of both under three conditions: the target adds no line feeds (`KeepsLines`),
the service address holds none, and neither does any name or type of the element (`LineFree`). -/
structure Implements (setting : Setting) (element : Element) (implementation interface : Entity) :
    Prop where
  methods : interface.declaration.prototypes =
    implementation.declaration.methods.map Method.signature
  base : implementation.declaration.bases.toList.head? = some (.user interface.name)
  clause : ∃ rest, implementation.declaration.baseClause =
    [.continuation (": public " ++ interface.name ++ rest)]
  texts : setting.target.KeepsLines → LineFree setting.serviceUrl → element.LineFree →
    pureVirtuals setting.target.indent (interface.declarationText setting.target) =
        interface.declaration.prototypes.map Signature.text ∧
      overrides setting.target.indent (implementation.declarationText setting.target) =
        interface.declaration.prototypes.map Signature.text

/-- The two facets of a contract are an implementation and its interface. -/
theorem HasContract.implements {setting : Setting} {element : Element} {role : Role}
    {contract : Contract} (h : HasContract setting element role contract) (own face : Role)
    {implementation interface : Entity}
    (himplementation : implementation.declaration = contract.implementationDeclaration
      (setting.target.naming.roleName element own) (setting.target.naming.roleName element face))
    (hname : interface.name = setting.target.naming.roleName element face)
    (hinterface : interface.declaration =
      contract.interfaceDeclaration (setting.target.naming.roleName element face)) :
    Implements setting element implementation interface := by
  constructor
  case methods =>
    rw [hinterface, himplementation, Contract.prototypes_interfaceDeclaration,
      Contract.methods_implementationDeclaration]
  case base =>
    rw [himplementation, hname]
    rfl
  case clause =>
    refine ⟨", " ++ ("public " ++ contract.frameworkClass.text), ?_⟩
    have hpublic : ": public " = ": " ++ "public " := rfl
    rw [himplementation, hname, hpublic]
    simp only [String.append_assoc]
    rw [← String.append_assoc, ← String.append_assoc, ← String.append_assoc]
    rfl
  case texts =>
    intro htarget hurl helement
    have hlegible := h.legible htarget hurl helement
    have hnames := htarget.roleName helement
    have hsignatures : interface.declaration.prototypes.map Signature.text =
        contract.methods.map fun m => m.signature.text := by
      rw [hinterface, Contract.prototypes_interfaceDeclaration, List.map_map]
      rfl
    rw [hsignatures]
    constructor
    · rw [pureVirtuals, Entity.declarationText, hinterface,
        (hlegible.interfaceDeclaration (hnames face) htarget.indent).readBody_eq htarget.indent
          fun line s => length_of_pureVirtual?]
      exact contract.pureVirtuals_members _ _
    · rw [overrides, Entity.declarationText, himplementation,
        (hlegible.implementationDeclaration (hnames own) (hnames face)
          htarget.indent).readBody_eq htarget.indent fun line s => length_of_override?]
      exact Contract.overrides_members hlegible.methods _ _ _

/-- Every element that accepts a role with two facets has an interface and an implementation in
this role, and the implementation carries out the interface.  This holds for every
target, service address and element; only what is read off the texts needs the target to add no line
feeds, and the service address and the names and types of the element to hold none. -/
theorem facets_agree (setting : Setting) {element : Element} {role face : Role}
    (hface : role.interface? = some face) (haccepts : element.accepts role = true) :
    ∃ di dc ei ec, Descriptor.new element face = .ok di ∧
      Descriptor.new element role.implementation = .ok dc ∧
        di.render setting = .ok ei ∧ dc.render setting = .ok ec ∧
          ei.name = setting.target.naming.roleName element face ∧
            Implements setting element ec ei := by
  obtain ⟨contract, hcontract⟩ := exists_contract setting hface haccepts
  obtain ⟨rfl, hfacet⟩ := withFacet_spec hface
  have hboth : ∀ f, element.accepts (role.withFacet f) = true := fun f =>
    (element.accepts_withFacet role f).trans haccepts
  have hrender : ∀ f, Descriptor.render setting ⟨element, role.withFacet f, hboth f⟩ =
      .ok (contract.entity (role.withFacet f)
        (setting.target.naming.roleName element (role.withFacet f))
        (setting.target.naming.roleName element (role.withFacet .interface))) := by
    intro f
    have hrendered := Rendered.facet (hcontract f)
    rw [withFacet_withFacet] at hrendered
    exact Descriptor.render_eq_ok_iff.mpr ⟨_, hrendered⟩
  refine ⟨⟨element, role.withFacet .interface, hboth _⟩,
    ⟨element, role.withFacet .implementation, hboth _⟩, _, _,
    Descriptor.new_eq_ok_iff.mpr ⟨rfl, rfl⟩, Descriptor.new_eq_ok_iff.mpr ⟨rfl, rfl⟩,
    hrender _, hrender _, rfl, ?_⟩
  refine (hcontract .implementation).implements (role.withFacet .implementation)
    (role.withFacet .interface) ?_ rfl ?_
  · rw [Contract.entity, hfacet]
    rfl
  · rw [Contract.entity, hfacet]
    rfl

/-- A class with a collection and a reference. -/
def mailUser : ClassDecl where
  name := "user"
  kind := .entity
  base := none
  properties :=
    [⟨"messages", "message", true, true, none, "user"⟩,
      ⟨"manager", "person", false, true, none, "user"⟩]

/-- The methods of the request builder of a user. -/
def mailUserSignatures : List String :=
  ["std::unique_ptr<IUserRequest> CreateRequest() noexcept",
    "std::unique_ptr<IUserMessagesCollectionRequestBuilder> Messages() noexcept",
    "std::unique_ptr<IManagerRequestBuilder> Manager() noexcept"]

/-- The request builder of a user implements its interface. -/
theorem mailUser_implements :
    ∃ ei ec, Implements (Model.standardSetting Model.defaultServiceUrl) (.ofClass mailUser) ec ei ∧
      pureVirtuals "\t" (ei.declarationText .standard) = mailUserSignatures ∧
        overrides "\t" (ec.declarationText .standard) = mailUserSignatures := by
  obtain ⟨di, dc, ei, ec, hdi, -, hei, -, -, himplements⟩ :=
    facets_agree (Model.standardSetting Model.defaultServiceUrl)
      (rfl : (Role.requestBuilder .implementation).interface? = some (.requestBuilder .interface))
      (rfl : (Element.ofClass mailUser).accepts (.requestBuilder .implementation) = true)
  have hlines : (Element.ofClass mailUser).LineFree := by decide
  have htexts := himplements.texts Target.standard_keepsLines (by decide) hlines
  have hsignatures : ei.declaration.prototypes.map Signature.text = mailUserSignatures := by
    cases hdi
    cases hei
    decide +kernel
  rw [hsignatures] at htexts
  exact ⟨ei, ec, himplements, htexts⟩

end SdkHeaders
