import SdkHeaders.Header.Rendering

/-!
# The header of a role

The headers of a model described role by role: what kind of element each one is made from,
by which contract, and which type names it is made to depend on.

Main results:

- Relation `HasContract` gives the contract of an element in a role that has facets.
- Relation `Rendered` gives the header of an element in a role, and theorem
  `Descriptor.render_eq_ok_iff` says that descriptors are rendered in this way.
- Theorem `Rendered.spec` says what is common to all headers.
-/

namespace SdkHeaders

open Header

/-! ## Headers role by role -/

/-- The contract of an element in a role that comes in two facets. -/
inductive HasContract (setting : Setting) : Element → Role → Contract → Prop
  | request (c : ClassDecl) (f : Facet) :
      HasContract setting (.ofClass c) (.request f)
        (requestContract setting.target.naming c)
  | requestBuilder (c : ClassDecl) (f : Facet) :
      HasContract setting (.ofClass c) (.requestBuilder f)
        (requestBuilderContract setting.target.naming c)
  | client (c : ClassDecl) (f : Facet) :
      HasContract setting (.ofClass c) (.client f) (clientContract setting c)
  | collectionPage (c : ClassDecl) (p : Property) (f : Facet) :
      HasContract setting (.ofProperty c p) (.collectionPage f)
        (pageContract setting.target c p)
  | collectionRequest (c : ClassDecl) (p : Property) (f : Facet) :
      HasContract setting (.ofProperty c p) (.collectionRequest f)
        (collectionRequestContract setting.target c p)
  | collectionRequestBuilder (c : ClassDecl) (p : Property) (f : Facet) :
      HasContract setting (.ofProperty c p) (.collectionRequestBuilder f)
        (collectionRequestBuilderContract setting.target c p)

/-- The names that the data type of a class depends on. -/
def dataNames (target : Target) (c : ClassDecl) : List TypeName :=
  readerNames ++ c.properties.flatMap (·.memberNames target) ++ baseNames target c

/-- The names that the answer with a page of a property depends on. -/
def responseNames (target : Target) (p : Property) : List TypeName :=
  target.resolve p.type :: .system Cpp.vector :: .system Cpp.wideString :: readerNames

/-- The header of an element in a role, with the names that it is made to depend on. -/
inductive Rendered (setting : Setting) : Element → Role → List TypeName → Entity → Prop
  | enumData (e : EnumDecl) :
      Rendered setting (.ofEnum e) .dataType (enumNames e) (e.dataEntity setting.target)
  | classData (c : ClassDecl) :
      Rendered setting (.ofClass c) .dataType (dataNames setting.target c)
        (c.dataEntity setting.target)
  | response (c : ClassDecl) (p : Property) :
      Rendered setting (.ofProperty c p) .collectionResponse (responseNames setting.target p)
        (responseEntity setting.target c p)
  | facet {element : Element} {role : Role} {contract : Contract}
      (h : HasContract setting element role contract) :
      Rendered setting element role
        (contract.dependencyNames
          (setting.target.naming.roleName element (role.withFacet .interface)) role.facet)
        (contract.entity role (setting.target.naming.roleName element role)
          (setting.target.naming.roleName element (role.withFacet .interface)))

variable {setting : Setting}

/-- A facet of a descriptor is a header of its element in its role. -/
theorem Rendered.of_renderFacet {d : Descriptor} {contract : Contract}
    (h : HasContract setting d.element d.role contract) :
    ∃ names, Rendered setting d.element d.role names
      (d.renderFacet setting.target.naming contract) :=
  ⟨_, .facet h⟩

/-- The header of a descriptor is that of its element in its role. -/
theorem Descriptor.render_eq_ok_iff {d : Descriptor} {e : Entity} :
    d.render setting = .ok e ↔ ∃ names, Rendered setting d.element d.role names e := by
  obtain ⟨element, role, haccepts⟩ := d
  constructor
  · intro h
    cases role <;> cases element <;>
      simp only [render, asClass, asProperty, Except.map, Except.ok.injEq, reduceCtorEq] at h <;>
      subst h
    case dataType.ofEnum e => exact ⟨_, .enumData e⟩
    case dataType.ofClass c => exact ⟨_, .classData c⟩
    case collectionResponse.ofProperty c p => exact ⟨_, .response c p⟩
    case request.ofClass f c => exact Rendered.of_renderFacet (.request c f)
    case requestBuilder.ofClass f c => exact Rendered.of_renderFacet (.requestBuilder c f)
    case client.ofClass f c => exact Rendered.of_renderFacet (.client c f)
    case collectionPage.ofProperty f c p => exact Rendered.of_renderFacet (.collectionPage c p f)
    case collectionRequest.ofProperty f c p =>
      exact Rendered.of_renderFacet (.collectionRequest c p f)
    case collectionRequestBuilder.ofProperty f c p =>
      exact Rendered.of_renderFacet (.collectionRequestBuilder c p f)
  · rintro ⟨names, h⟩
    cases h with
    | facet hcontract => cases hcontract <;> rfl
    | _ => rfl

/-- A header declares the name of its element in its role, has this role, and depends on the
names that it is made to depend on. -/
theorem Rendered.spec {element : Element} {role : Role} {names : List TypeName} {e : Entity}
    (h : Rendered setting element role names e) :
    e.name = setting.target.naming.roleName element role ∧ e.role = role ∧
      e.dependencies = names.foldl Dependencies.add (.new e.name) := by
  cases h with
  | enumData e => exact ⟨rfl, rfl, by simp only [EnumDecl.dataEntity]⟩
  | _ => exact ⟨rfl, rfl, rfl⟩

end SdkHeaders
