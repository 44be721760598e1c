import SdkHeaders.Proofs.Generation

/-!
# What declarations use

The declarations that a declaration depends on: those of the same element in other roles, which
are the same for all elements, and those that the model refers to by the type of a property, by a
base or by a navigation property.  The types of the framework are left out.

Main results:

- Definition `Role.uses` lists the roles that a role uses, and theorem `Role.height_lt` says that
  following them comes to an end.
- Relation `ModelReference` lists the references of the model that a declaration follows.
- Theorem `Rendered.mem_iff_uses`: a header depends on exactly what its declaration uses.
-/

namespace SdkHeaders

open Header

/-! ## Roles of the same element -/

/-- The roles of an element whose declarations its declaration in a role uses. -/
def Role.uses : Role → List Role
  | dataType => []
  | request .interface => [dataType]
  | request .implementation => [dataType, request .interface]
  | requestBuilder .interface => [request .interface]
  | requestBuilder .implementation =>
      [request .interface, request .implementation, requestBuilder .interface]
  | collectionPage .interface => []
  | collectionPage .implementation => [collectionPage .interface]
  | collectionRequest .interface => [collectionResponse]
  | collectionRequest .implementation => [collectionResponse, collectionRequest .interface]
  | collectionRequestBuilder .interface => [collectionRequest .interface]
  | collectionRequestBuilder .implementation =>
      [collectionRequest .interface, collectionRequest .implementation,
        collectionRequestBuilder .interface]
  | collectionResponse => []
  | client .interface => []
  | client .implementation => [client .interface]

/-- How many roles can be passed at most when used roles are followed. -/
def Role.height : Role → Nat
  | dataType | collectionResponse => 0
  | request .interface | collectionPage .interface | collectionRequest .interface
  | client .interface => 1
  | request .implementation | collectionPage .implementation
  | collectionRequest .implementation | client .implementation => 2
  | requestBuilder .interface | collectionRequestBuilder .interface => 3
  | requestBuilder .implementation | collectionRequestBuilder .implementation => 4

theorem Role.height_lt {role other : Role} (h : other ∈ role.uses) :
    other.height < role.height := by
  have hall : ∀ role ∈ Role.all, ∀ other ∈ role.uses, other.height < role.height := by decide
  exact hall role role.mem_all other h

/-- An element that plays a role also plays the roles that the role uses. -/
theorem Model.uses_mem_bindings {model : Model} {element : Element} {role other : Role}
    (h : (element, role) ∈ model.bindings) (hother : other ∈ role.uses) :
    (element, other) ∈ model.bindings := by
  have hall : ∀ roles ∈ [[Role.dataType], Role.ofEntity, Role.ofContainer, Role.ofCollection],
      ∀ role ∈ roles, ∀ other ∈ role.uses, other ∈ roles := by decide
  cases element with
  | ofEnum e =>
      obtain ⟨he, rfl⟩ := mem_bindings_ofEnum.mp h
      cases hother
  | ofClass c =>
      obtain ⟨hc, hrole⟩ := mem_bindings_ofClass.mp h
      have hroles : c.roles ∈ [[Role.dataType], Role.ofEntity, Role.ofContainer,
          Role.ofCollection] := by
        cases hkind : c.kind <;> simp [ClassDecl.roles, hkind]
      exact mem_bindings_ofClass.mpr ⟨hc, hall _ hroles role hrole other hother⟩
  | ofProperty c p =>
      obtain ⟨hc, hp, hrole⟩ := mem_bindings_ofProperty.mp h
      exact mem_bindings_ofProperty.mpr ⟨hc, hp, hall _ (by simp) role hrole other hother⟩

/-! ## References of the model -/

/-- The facets of other elements that a declaration in a facet knows. -/
def Facet.uses : Facet → List Facet
  | .interface => [.interface]
  | .implementation => [.interface, .implementation]

/-- The names that the declaration of an element in a role spells because the model refers to
them: data types by the types of properties and by bases, the other declarations of a collection
by the type of its items, and builders by what navigation leads to. -/
inductive ModelReference (target : Target) : Element → Role → String → Prop
  | value {c : ClassDecl} {p : Property} (hp : p ∈ c.properties)
      (h : target.primitive? p.type = none) :
      ModelReference target (.ofClass c) .dataType (target.naming.typeName p.type)
  | base {c : ClassDecl} {b : String} (h : c.base = some b) :
      ModelReference target (.ofClass c) .dataType (target.naming.typeName b)
  | item {c : ClassDecl} {p : Property} {role : Role} (hrole : role ∈ Role.ofCollection)
      (hother : ∀ f, role ≠ .collectionRequestBuilder f) (h : target.primitive? p.type = none) :
      ModelReference target (.ofProperty c p) role (target.naming.typeName p.type)
  | link {c : ClassDecl} {p : Property} {role : Role} {g : Facet}
      (hrole : role = .requestBuilder role.facet ∨ role = .client role.facet)
      (hp : p ∈ c.navigations) (hg : g ∈ role.facet.uses) :
      ModelReference target (.ofClass c) role (target.naming.linkedBuilder c p g)
  | itemLink {c : ClassDecl} {p : Property} {f g : Facet} (hg : g ∈ f.uses) :
      ModelReference target (.ofProperty c p) (.collectionRequestBuilder f)
        (target.naming.itemBuilder p g)

/-- The names of the declarations that the declaration of an element in a role uses. -/
def Uses (target : Target) (element : Element) (role : Role) (x : String) : Prop :=
  (∃ other ∈ role.uses, x = target.naming.roleName element other) ∨
    ModelReference target element role x

section References

variable {target : Target} {c : ClassDecl} {p : Property} {role : Role} {x : String}

theorem user_eq_resolve_iff {type : String} :
    .user x = target.resolve type ↔
      target.primitive? type = none ∧ x = target.naming.typeName type := by
  unfold Target.resolve
  cases target.primitive? type <;> simp

theorem modelReference_data_iff :
    ModelReference target (.ofClass c) .dataType x ↔
      (∃ p ∈ c.properties, .user x = target.resolve p.type) ∨
        ∃ b, c.base = some b ∧ x = target.naming.typeName b := by
  simp only [user_eq_resolve_iff]
  constructor
  · intro h
    cases h with
    | value hp h => exact .inl ⟨_, hp, h, rfl⟩
    | base h => exact .inr ⟨_, h, rfl⟩
    | link h => rcases h with h | h <;> cases h
  · rintro (⟨p, hp, h, rfl⟩ | ⟨b, h, rfl⟩)
    · exact .value hp h
    · exact .base h

theorem modelReference_item_iff (hrole : role ∈ Role.ofCollection)
    (hother : ∀ f, role ≠ .collectionRequestBuilder f) :
    ModelReference target (.ofProperty c p) role x ↔ .user x = target.resolve p.type := by
  rw [user_eq_resolve_iff]
  constructor
  · intro h
    cases h with
    | item _ _ h => exact ⟨h, rfl⟩
    | itemLink => exact absurd rfl (hother _)
  · rintro ⟨h, rfl⟩
    exact .item hrole hother h

theorem modelReference_link_iff
    (hrole : role = .requestBuilder role.facet ∨ role = .client role.facet) :
    ModelReference target (.ofClass c) role x ↔
      ∃ g ∈ role.facet.uses, ∃ p ∈ c.navigations, x = target.naming.linkedBuilder c p g := by
  constructor
  · intro h
    cases h with
    | link _ hp hg => exact ⟨_, hg, _, hp, rfl⟩
    | value | base => rcases hrole with hrole | hrole <;> cases hrole
  · rintro ⟨g, hg, p, hp, rfl⟩
    exact .link hrole hp hg

theorem modelReference_itemLink_iff {f : Facet} :
    ModelReference target (.ofProperty c p) (.collectionRequestBuilder f) x ↔
      ∃ g ∈ f.uses, x = target.naming.itemBuilder p g := by
  constructor
  · intro h
    cases h with
    | item _ h => exact absurd rfl (h _)
    | itemLink hg => exact ⟨_, hg, rfl⟩
  · rintro ⟨g, hg, rfl⟩
    exact .itemLink hg

end References

/-! ## Dependencies of the headers -/

section Dependencies

variable {setting : Setting} {target : Target} {c : ClassDecl} {p : Property} {f : Facet}
  {x : String}

theorem user_mem_navigationShared {naming : Naming} :
    .user x ∈ navigationShared naming c ↔
      ∃ p ∈ c.navigations, x = naming.linkedBuilder c p .interface := by
  simp [navigationShared]

theorem user_mem_navigationConcrete {naming : Naming} (hx : x ≠ "IBaseClient") :
    .user x ∈ navigationConcrete naming c ↔
      ∃ p ∈ c.navigations, x = naming.linkedBuilder c p .implementation := by
  simp [navigationConcrete, hx]

theorem user_mem_request (hx : x ∉ Cpp.frameworkTypes) :
    .user x ∈ (requestContract target.naming c).dependencyNames
        (target.naming.roleName (.ofClass c) (.request .interface)) f ↔
      Uses target (.ofClass c) (.request f) x := by
  have hnone : ¬ ModelReference target (.ofClass c) (.request f) x := by
    intro h
    cases h with
    | link hrole => simp at hrole
  simp only [Cpp.frameworkTypes, List.mem_cons, not_or] at hx
  cases f <;>
    simp [Contract.dependencyNames, requestContract, requestConstructorNames, TypeExpr.user,
      TypeExpr.names, hx, Uses, Role.uses, hnone]

theorem user_mem_requestBuilder (hx : x ∉ Cpp.frameworkTypes) :
    .user x ∈ (requestBuilderContract target.naming c).dependencyNames
        (target.naming.roleName (.ofClass c) (.requestBuilder .interface)) f ↔
      Uses target (.ofClass c) (.requestBuilder f) x := by
  have hlink : ModelReference target (.ofClass c) (.requestBuilder f) x ↔
      ∃ g ∈ f.uses, ∃ p ∈ c.navigations, x = target.naming.linkedBuilder c p g :=
    modelReference_link_iff (.inl rfl)
  simp only [Cpp.frameworkTypes, List.mem_cons, not_or] at hx
  unfold Uses requestBuilderContract
  rw [hlink]
  cases f with
  | interface =>
      simp [Contract.dependencyNames, TypeExpr.user, TypeExpr.names, hx, Role.uses, Facet.uses,
        user_mem_navigationShared]
  | implementation =>
      simp [Contract.dependencyNames, requestConstructorNames, TypeExpr.user, TypeExpr.names, hx,
        Role.uses, Facet.uses, user_mem_navigationShared, user_mem_navigationConcrete]
      grind

theorem user_mem_client (hx : x ∉ Cpp.frameworkTypes) :
    .user x ∈ (clientContract setting c).dependencyNames
        (setting.target.naming.roleName (.ofClass c) (.client .interface)) f ↔
      Uses setting.target (.ofClass c) (.client f) x := by
  have hlink : ModelReference setting.target (.ofClass c) (.client f) x ↔
      ∃ g ∈ f.uses, ∃ p ∈ c.navigations, x = setting.target.naming.linkedBuilder c p g :=
    modelReference_link_iff (.inr rfl)
  simp only [Cpp.frameworkTypes, List.mem_cons, not_or] at hx
  unfold Uses clientContract
  rw [hlink]
  cases f with
  | interface =>
      simp [Contract.dependencyNames, TypeExpr.user, TypeExpr.names, hx, Role.uses, Facet.uses,
        user_mem_navigationShared]
  | implementation =>
      simp [Contract.dependencyNames, TypeExpr.user, TypeExpr.names, hx, Role.uses, Facet.uses,
        user_mem_navigationShared, user_mem_navigationConcrete]
      grind

theorem user_mem_collectionPage (hx : x ∉ Cpp.frameworkTypes) :
    .user x ∈ (pageContract target c p).dependencyNames
        (target.naming.roleName (.ofProperty c p) (.collectionPage .interface)) f ↔
      Uses target (.ofProperty c p) (.collectionPage f) x := by
  have hitem : ModelReference target (.ofProperty c p) (.collectionPage f) x ↔ _ :=
    modelReference_item_iff (by cases f <;> decide) nofun
  simp only [Cpp.frameworkTypes, List.mem_cons, not_or] at hx
  cases f <;>
    simp [Contract.dependencyNames, pageContract, Property.elementType, TypeExpr.userOf,
      TypeExpr.names, hx, Uses, Role.uses, hitem]
  tauto

theorem user_mem_collectionRequest (hx : x ∉ Cpp.frameworkTypes) :
    .user x ∈ (collectionRequestContract target c p).dependencyNames
        (target.naming.roleName (.ofProperty c p) (.collectionRequest .interface)) f ↔
      Uses target (.ofProperty c p) (.collectionRequest f) x := by
  have hitem : ModelReference target (.ofProperty c p) (.collectionRequest f) x ↔ _ :=
    modelReference_item_iff (by cases f <;> decide) nofun
  simp only [Cpp.frameworkTypes, List.mem_cons, not_or] at hx
  cases f <;>
    simp [Contract.dependencyNames, collectionRequestContract, requestConstructorNames,
      TypeExpr.user, TypeExpr.names, hx, Uses, Role.uses, hitem] <;>
    tauto

theorem user_mem_collectionRequestBuilder (hx : x ∉ Cpp.frameworkTypes) :
    .user x ∈ (collectionRequestBuilderContract target c p).dependencyNames
        (target.naming.roleName (.ofProperty c p) (.collectionRequestBuilder .interface)) f ↔
      Uses target (.ofProperty c p) (.collectionRequestBuilder f) x := by
  simp only [Cpp.frameworkTypes, List.mem_cons, not_or] at hx
  cases f <;>
    simp [Contract.dependencyNames, collectionRequestBuilderContract, requestConstructorNames,
      TypeExpr.user, TypeExpr.names, hx, Uses, Role.uses, Facet.uses, modelReference_itemLink_iff]
  tauto

theorem user_mem_dataNames (hx : x ∉ Cpp.frameworkTypes) :
    .user x ∈ dataNames target c ↔ Uses target (.ofClass c) .dataType x := by
  have hreader : TypeName.user x ∉ readerNames := by
    simp only [Cpp.frameworkTypes, List.mem_cons, not_or] at hx
    simp [readerNames, hx]
  have hmember : ∀ p : Property,
      .user x ∈ p.memberNames target ↔ .user x = target.resolve p.type := by
    intro p
    cases hcollection : p.collection <;> simp [Property.memberNames, hcollection]
  have hbase : .user x ∈ baseNames target c ↔
      ∃ b, c.base = some b ∧ x = target.naming.typeName b := by
    unfold baseNames Naming.baseType
    cases c.base <;> simp
  simp [dataNames, hreader, hmember, hbase, Uses, Role.uses, modelReference_data_iff]

/-- Besides types of the framework, a header depends on exactly what its declaration uses. -/
theorem Rendered.mem_iff_uses {element : Element} {role : Role} {names : List TypeName}
    {e : Entity} (h : Rendered setting element role names e) (hx : x ∉ Cpp.frameworkTypes) :
    .user x ∈ names ↔ Uses setting.target element role x := by
  cases h with
  | enumData e =>
      have hnone : ¬ ModelReference setting.target (.ofEnum e) .dataType x := nofun
      simp only [Cpp.frameworkTypes, List.mem_cons, not_or] at hx
      cases hflags : e.flags <;> simp [enumNames, hflags, hx, Uses, Role.uses, hnone]
  | classData c => exact user_mem_dataNames hx
  | response c p =>
      have hitem : ModelReference setting.target (.ofProperty c p) .collectionResponse x ↔ _ :=
        modelReference_item_iff (by decide) nofun
      simp only [Cpp.frameworkTypes, List.mem_cons, not_or] at hx
      simp [responseNames, readerNames, hx, Uses, Role.uses, hitem]
  | facet hcontract =>
      cases hcontract with
      | request => exact user_mem_request hx
      | requestBuilder => exact user_mem_requestBuilder hx
      | client => exact user_mem_client hx
      | collectionPage => exact user_mem_collectionPage hx
      | collectionRequest => exact user_mem_collectionRequest hx
      | collectionRequestBuilder => exact user_mem_collectionRequestBuilder hx

end Dependencies

end SdkHeaders
