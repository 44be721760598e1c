import SdkHeaders.Proofs.SelfContained
import SdkHeaders.Proofs.Spelling
import SdkHeaders.Proofs.UniqueNames

/-!
# Declared types of properties

What becomes of a property whose type is the name of a declared enumeration or class.  The table
of primitive types is asked first and without regard to case, so that a declaration under the name
of a primitive type is never referred to.  Every other declared name resolves to the declaration,
and the headers that are made from the property use it and include its header.

Main results:

- Relation `Model.DeclaredAs` says under which names the elements of a model are declared, and
  definition `Element.typeRole` which of their declarations they are used by.
- Structure `Model.UsesType` lists how the headers of a property use a declared type.
- Theorem `Model.declared_type_spec`: unless the name is that of a primitive type, the type of a
  property is the declared element and is used so.
- Theorem `eventModel_not_declared`: there are declared names that do not resolve to a data type.
-/

namespace SdkHeaders

open Header

/-! ## Declared names -/

/-- An element of a model is declared under a name. -/
inductive Model.DeclaredAs (model : Model) : Element → String → Prop
  /-- An enumeration under its name. -/
  | ofEnum {e : EnumDecl} (he : e ∈ model.enums) : DeclaredAs model (.ofEnum e) e.name
  /-- A class under its name. -/
  | ofClass {c : ClassDecl} (hc : c ∈ model.classes) : DeclaredAs model (.ofClass c) c.name

/-- The role by which an element is used as a type: the data of the element, or the client of a
container, which has no data. -/
def Element.typeRole : Element → Role
  | .ofClass c => if c.kind = .container then .client .implementation else .dataType
  | _ => .dataType

namespace Model.DeclaredAs

variable {model : Model} {element : Element} {name : String} (h : model.DeclaredAs element name)

include h

/-- A declared element plays the role by which it is used as a type. -/
theorem mem_bindings : (element, element.typeRole) ∈ model.bindings := by
  cases h with
  | ofEnum he => exact mem_bindings_ofEnum.mpr ⟨he, rfl⟩
  | @ofClass c hc =>
      refine mem_bindings_ofClass.mpr ⟨hc, ?_⟩
      by_cases hkind : c.kind = .container
      · simp only [Element.typeRole, if_pos hkind]
        exact ClassDecl.client_mem_roles.mpr hkind
      · simp only [Element.typeRole, if_neg hkind]
        exact ClassDecl.dataType_mem_roles.mpr hkind

/-- The type name of a declared name is the name of the declaration by which the element is used
as a type. -/
theorem typeName_eq (naming : Naming) :
    naming.typeName name = naming.roleName element element.typeRole := by
  cases h with
  | ofEnum => exact Naming.typeName_enum _
  | @ofClass c =>
      rw [Naming.typeName_class, Element.typeRole]
      split <;> rfl

/-- A declared element is not a property. -/
theorem ne_ofProperty (c : ClassDecl) (p : Property) : element ≠ .ofProperty c p := by
  cases h <;> simp

end Model.DeclaredAs

/-! ## Uses of a type -/

/-- A header includes the header of a name. -/
def Entity.IncludesHeaderOf (target : Target) (e : Entity) (x : String) : Prop :=
  target.headerFile x ∈ (e.includes target).user.toList

/-- A header includes the header of every name that it is made to depend on but its own. -/
theorem Rendered.includesHeaderOf {setting : Setting} {element : Element} {role : Role}
    {names : List TypeName} {e : Entity} {x : String}
    (h : Rendered setting element role names e) (hx : .user x ∈ names) (hne : x ≠ "")
    (hown : x ≠ setting.target.naming.roleName element role) :
    e.IncludesHeaderOf setting.target x := by
  obtain ⟨hname, -, hdependencies⟩ := h.spec
  refine Dependencies.mem_user_includes.mpr ⟨x, ?_, rfl⟩
  rw [hdependencies, Dependencies.mem_user_foldl_add]
  exact Or.inl ⟨hx, hne, hname ▸ hown⟩

/-- The headers that are made from a property of a class use an element as the type of the property,
under the name of its declaration. -/
structure Model.UsesType (model : Model) (setting : Setting) (c : ClassDecl) (p : Property)
    (element : Element) (x : String) : Prop where
  /-- The data member of the property has the type, or holds a sequence of it.  The header of the
  class includes that of the type, unless the class is the type. -/
  member : c.kind ≠ .container → ∃ e, model.Renders setting (.ofClass c) .dataType e ∧
    .field p.summary (if p.collection then Target.sequenceOf (.user x) else .user x)
        (setting.target.naming.memberName p.name) ∈ e.declaration.members ∧
      (element ≠ .ofClass c → e.IncludesHeaderOf setting.target x)
  /-- The pages of the collection are pages of the type. -/
  pageInterface : p ∈ c.boundCollections →
    ∃ e, model.Renders setting (.ofProperty c p) (.collectionPage .interface) e ∧
      .userOf "ICollectionPage" (.user x) ∈ e.declaration.bases.toList ∧
        e.IncludesHeaderOf setting.target x
  /-- The pages of the collection are implemented as pages of the type. -/
  page : p ∈ c.boundCollections →
    ∃ e, model.Renders setting (.ofProperty c p) (.collectionPage .implementation) e ∧
      .userOf "CollectionPage" (.user x) ∈ e.declaration.bases.toList ∧
        e.IncludesHeaderOf setting.target x
  /-- The request for the collection asks for a method that adds an object of the type. -/
  requestInterface : p ∈ c.boundCollections →
    ∃ e, model.Renders setting (.ofProperty c p) (.collectionRequest .interface) e ∧
      (addItem (.user x)).signature ∈ e.declaration.prototypes ∧
        e.IncludesHeaderOf setting.target x
  /-- The request for the collection adds objects of the type. -/
  request : p ∈ c.boundCollections →
    ∃ e, model.Renders setting (.ofProperty c p) (.collectionRequest .implementation) e ∧
      addItem (.user x) ∈ e.declaration.methods ∧ e.IncludesHeaderOf setting.target x
  /-- The answer carries a sequence of the type. -/
  response : p ∈ c.boundCollections →
    ∃ e, model.Renders setting (.ofProperty c p) .collectionResponse e ∧
      (Target.sequenceOf (.user x), "value") ∈ e.declaration.fields ∧
        e.IncludesHeaderOf setting.target x

section Uses

variable {model : Model} {setting : Setting} {c : ClassDecl} {p : Property} {x : String}
  (hresolve : setting.target.resolve p.type = .user x) (hne : x ≠ "")

include hresolve hne

/-- The data of a class uses the declared type of a property. -/
theorem Rendered.member_of_resolve {names : List TypeName} {e : Entity}
    (h : Rendered setting (.ofClass c) .dataType names e) (hp : p ∈ c.properties) :
    .field p.summary (if p.collection then Target.sequenceOf (.user x) else .user x)
        (setting.target.naming.memberName p.name) ∈ e.declaration.members ∧
      (x ≠ setting.target.naming.roleName (.ofClass c) .dataType →
        e.IncludesHeaderOf setting.target x) := by
  cases h with
  | facet hcontract => cases hcontract
  | classData =>
      constructor
      · refine List.mem_append_left _ (List.mem_map.mpr ⟨p, hp, ?_⟩)
        rw [Property.member, Property.memberType, Property.elementType, hresolve]
        rfl
      · refine (Rendered.classData c).includesHeaderOf ?_ hne
        have hmember : .user x ∈ p.memberNames setting.target :=
          hresolve ▸ List.mem_cons_self
        exact List.mem_append_left _
          (List.mem_append_right _ (List.mem_flatMap.mpr ⟨p, hp, hmember⟩))

/-- A facet of a contract that both facets share a declared type with includes its header. -/
theorem HasContract.includesHeaderOf {element : Element} {role : Role} {contract : Contract}
    (h : HasContract setting element role contract)
    (hshared : setting.target.resolve p.type ∈ contract.shared)
    (hown : x ≠ setting.target.naming.roleName element role) :
    (contract.entity role (setting.target.naming.roleName element role)
      (setting.target.naming.roleName element (role.withFacet .interface))).IncludesHeaderOf
        setting.target x := by
  refine (Rendered.facet h).includesHeaderOf ?_ hne hown
  rw [hresolve] at hshared
  cases role.facet with
  | interface => exact List.mem_append_left _ hshared
  | implementation => exact List.mem_append_left _ (List.mem_append_left _ hshared)

end Uses

/-- A model has a header for each facet of an element that it binds. -/
theorem Model.renders_facet {model : Model} {setting : Setting} {element : Element} {role : Role}
    {contract : Contract} (h : HasContract setting element role contract)
    (hmem : (element, role) ∈ model.bindings) :
    model.Renders setting element role
      (contract.entity role (setting.target.naming.roleName element role)
        (setting.target.naming.roleName element (role.withFacet .interface))) := by
  obtain ⟨entity, names, hrenders, hrendered⟩ := exists_renders setting hmem
  cases h <;> cases hrendered with
  | facet hcontract =>
      cases hcontract
      exact hrenders

/-- A model has a header for the answer with a page of each collection. -/
theorem Model.renders_response {model : Model} (setting : Setting) {c : ClassDecl} {p : Property}
    (hmem : (.ofProperty c p, .collectionResponse) ∈ model.bindings) :
    model.Renders setting (.ofProperty c p) .collectionResponse
      (responseEntity setting.target c p) := by
  obtain ⟨entity, names, hrenders, hrendered⟩ := exists_renders setting hmem
  cases hrendered with
  | facet hcontract => cases hcontract
  | response => exact hrenders

section Declared

variable {model : Model} {serviceUrl : String} {ds : List Descriptor}
  (hds : model.descriptors (Model.standardSetting serviceUrl) = .ok ds) {c : ClassDecl}
  {p : Property} {element : Element} (hdeclared : model.DeclaredAs element p.type)

include hds hdeclared

/-- No declaration of another element has the name by which a declared element is used as a
type. -/
theorem Model.DeclaredAs.roleName_ne {other : Element} {role : Role}
    (hmem : (other, role) ∈ model.bindings) (hother : element ≠ other) :
    Cpp.naming.roleName element element.typeRole ≠ Cpp.naming.roleName other role :=
  fun hsame => hother (congrArg Prod.fst (eq_of_roleName_eq hds hdeclared.mem_bindings hmem hsame))

/-- A facet of the collection of a property includes the header of the declared element that the
type of the property resolves to, if both facets share this type. -/
theorem Model.DeclaredAs.exists_facet (hnamed : model.Named) (hc : c ∈ model.classes)
    (hbound : p ∈ c.boundCollections)
    (hresolve : Target.standard.resolve p.type =
      .user (Cpp.naming.roleName element element.typeRole))
    {role : Role} (hrole : role ∈ Role.ofCollection) {contract : Contract}
    (hcontract : HasContract (standardSetting serviceUrl) (.ofProperty c p) role contract)
    (hshared : Target.standard.resolve p.type ∈ contract.shared) :
    ∃ e, model.Renders (standardSetting serviceUrl) (.ofProperty c p) role e ∧
      e.declaration = contract.declaration (Cpp.naming.roleName (.ofProperty c p) role)
        (Cpp.naming.roleName (.ofProperty c p) (role.withFacet .interface)) role.facet ∧
        e.IncludesHeaderOf .standard (Cpp.naming.roleName element element.typeRole) := by
  have hmem := mem_bindings_ofProperty.mpr ⟨hc, hbound, hrole⟩
  have hne := Cpp.roleName_ne_empty hnamed hdeclared.mem_bindings
  have hown := hdeclared.roleName_ne hds hmem (hdeclared.ne_ofProperty c p)
  exact ⟨_, renders_facet hcontract hmem, rfl,
    hcontract.includesHeaderOf hresolve hne hshared hown⟩

end Declared

/-- The headers of a property use the declared element that its type resolves to. -/
theorem Model.usesType {model : Model} (hnamed : model.Named) {serviceUrl : String}
    {ds : List Descriptor} (hds : model.descriptors (standardSetting serviceUrl) = .ok ds)
    {c : ClassDecl} {p : Property} (hc : c ∈ model.classes) (hp : p ∈ c.properties)
    {element : Element} (hdeclared : model.DeclaredAs element p.type)
    (hresolve : Target.standard.resolve p.type =
      .user (Cpp.naming.roleName element element.typeRole)) :
    model.UsesType (standardSetting serviceUrl) c p element
      (Cpp.naming.roleName element element.typeRole) := by
  have hne := Cpp.roleName_ne_empty hnamed hdeclared.mem_bindings
  have helement : p.elementType Target.standard =
      .user (Cpp.naming.roleName element element.typeRole) :=
    congrArg TypeExpr.plain hresolve
  constructor
  case member =>
    intro hkind
    have hmem := mem_bindings_ofClass.mpr ⟨hc, ClassDecl.dataType_mem_roles.mpr hkind⟩
    obtain ⟨e, names, hrenders, hrendered⟩ := exists_renders (standardSetting serviceUrl) hmem
    obtain ⟨hmember, hincludes⟩ := hrendered.member_of_resolve hresolve hne hp
    exact ⟨e, hrenders, hmember, fun hother => hincludes (hdeclared.roleName_ne hds hmem hother)⟩
  case pageInterface =>
    intro hbound
    obtain ⟨e, hrenders, hdeclaration, hincludes⟩ :=
      hdeclared.exists_facet hds hnamed hc hbound hresolve (by decide)
        (.collectionPage c p .interface) List.mem_cons_self
    refine ⟨e, hrenders, ?_, hincludes⟩
    rw [hdeclaration, ← helement]
    exact List.mem_cons_self
  case page =>
    intro hbound
    obtain ⟨e, hrenders, hdeclaration, hincludes⟩ :=
      hdeclared.exists_facet hds hnamed hc hbound hresolve (by decide)
        (.collectionPage c p .implementation) List.mem_cons_self
    refine ⟨e, hrenders, ?_, hincludes⟩
    rw [hdeclaration, ← helement]
    exact List.mem_cons_of_mem _ List.mem_cons_self
  case requestInterface =>
    intro hbound
    obtain ⟨e, hrenders, hdeclaration, hincludes⟩ :=
      hdeclared.exists_facet hds hnamed hc hbound hresolve (by decide)
        (.collectionRequest c p .interface) List.mem_cons_self
    refine ⟨e, hrenders, ?_, hincludes⟩
    rw [hdeclaration, ← helement]
    exact List.mem_cons_of_mem _ List.mem_cons_self
  case request =>
    intro hbound
    obtain ⟨e, hrenders, hdeclaration, hincludes⟩ :=
      hdeclared.exists_facet hds hnamed hc hbound hresolve (by decide)
        (.collectionRequest c p .implementation) List.mem_cons_self
    refine ⟨e, hrenders, ?_, hincludes⟩
    rw [hdeclaration, ← helement]
    exact List.mem_cons_of_mem _ List.mem_cons_self
  case response =>
    intro hbound
    have hmem : (.ofProperty c p, .collectionResponse) ∈ model.bindings :=
      mem_bindings_ofProperty.mpr ⟨hc, hbound, by decide⟩
    refine ⟨_, renders_response _ hmem, ?_, (Rendered.response c p).includesHeaderOf ?_ hne
      (hdeclared.roleName_ne hds hmem (hdeclared.ne_ofProperty c p))⟩
    · rw [← helement]
      exact List.mem_cons_self
    · exact hresolve ▸ List.mem_cons_self

/-! ## Resolution -/

/-- The name of a primitive type resolves by its row in the table. -/
theorem Target.exists_row_of_primitive {target : Target} {type : String}
    (h : ¬ target.NotPrimitive type) :
    ∃ row ∈ target.primitiveTypes,
      sameLetters row.1 type = true ∧ target.resolve type = .system row.2 := by
  cases hfind : target.primitiveTypes.find? fun row => sameLetters row.1 type with
  | none =>
      rw [List.find?_eq_none] at hfind
      exact absurd (fun row hrow => Bool.eq_false_iff.mpr (hfind row hrow)) h
  | some row =>
      have hsame : sameLetters row.1 type = true := by simpa using List.find?_some hfind
      refine ⟨row, List.mem_of_find?_eq_some hfind, hsame, ?_⟩
      rw [resolve, primitive?, hfind]
      rfl

/-- The type of a property that is the name of a declared element.  If the name is not that of a
primitive type, it resolves to the declaration by which the element is used as a type, and the
headers of the property use this declaration.  Otherwise it resolves to the primitive type. -/
theorem Model.declared_type_spec {file : SourceFile} {format : Format} {model : Model}
    {serviceUrl : String} {ds : List Descriptor} (hload : file.load format = .ok model)
    (hds : model.descriptors (standardSetting serviceUrl) = .ok ds) {c : ClassDecl}
    {p : Property} (hc : c ∈ model.classes) (hp : p ∈ c.properties) {element : Element}
    (hdeclared : model.DeclaredAs element p.type) :
    (Target.standard.NotPrimitive p.type → ∃ x,
      Target.standard.resolve p.type = .user x ∧
        model.Calls Cpp.naming element element.typeRole x ∧
          model.UsesType (standardSetting serviceUrl) c p element x) ∧
    (¬ Target.standard.NotPrimitive p.type → ∃ row ∈ Cpp.primitiveTypes,
      Target.sameLetters row.1 p.type = true ∧
        Target.standard.resolve p.type = .system row.2) := by
  constructor
  · intro hprimitive
    have hresolve : Target.standard.resolve p.type =
        .user (Cpp.naming.roleName element element.typeRole) := by
      rw [← hdeclared.typeName_eq]
      exact Target.resolve_of_not_primitive (Target.primitive?_eq_none_of_notPrimitive hprimitive)
    exact ⟨_, hresolve, calls_of_mem_bindings hdeclared.mem_bindings,
      usesType (SourceFile.named_of_load hload) hds hc hp hdeclared hresolve⟩
  · exact Target.exists_row_of_primitive

/-! ## A model of events -/

/-- A document about events, each of which starts at a date and has a home. -/
def eventFile : SourceFile where
  name := "model.json"
  text :=
    "[\"demo\", [], [[\"date\", \"complex\"]," ++
      " [\"root\", \"container\", null, [[\"events\", \"event\", true, true]]]," ++
      " [\"event\", \"entity\", null, [[\"start\", \"date\"], [\"home\", \"root\"]]]]]"

/-- The class of dates. -/
def dateClass : ClassDecl :=
  ⟨"date", .complex, none, []⟩

/-- The container that events are at home in. -/
def rootClass : ClassDecl :=
  ⟨"root", .container, none, [⟨"events", "event", true, true, none, "root"⟩]⟩

/-- The class of events. -/
def eventClass : ClassDecl :=
  ⟨"event", .entity, none,
    [⟨"start", "date", false, false, none, "event"⟩, ⟨"home", "root", false, false, none, "event"⟩]⟩

/-- The model of events. -/
def eventModel : Model :=
  .ofFile { space := "demo", enums := [], classes := [dateClass, rootClass, eventClass] }

theorem eventFile_load : eventFile.load .json = .ok eventModel := by
  decide +kernel

/-- The events of the container are typed by their class, and the headers of their collection use
it. -/
theorem eventModel_declared_type :
    eventFile.load .json = .ok eventModel ∧ ∃ ds,
      eventModel.descriptors (Model.standardSetting Model.defaultServiceUrl) = .ok ds ∧
        rootClass ∈ eventModel.classes ∧ ∃ p ∈ rootClass.boundCollections, p.type = "event" ∧
          eventModel.DeclaredAs (.ofClass eventClass) p.type ∧
            Target.standard.NotPrimitive p.type ∧ ∃ x,
              Target.standard.resolve p.type = .user x ∧
                eventModel.Calls Cpp.naming (.ofClass eventClass) .dataType x ∧
                  eventModel.UsesType (Model.standardSetting Model.defaultServiceUrl) rootClass p
                    (.ofClass eventClass) x := by
  have hroot : rootClass ∈ eventModel.classes := by decide
  have hevent : eventClass ∈ eventModel.classes := by decide
  have hprimitive : Target.standard.NotPrimitive "event" := by
    unfold Target.NotPrimitive
    decide +kernel
  obtain ⟨ds, hds⟩ : ∃ ds,
      eventModel.descriptors (Model.standardSetting Model.defaultServiceUrl) = .ok ds := ⟨_, rfl⟩
  refine ⟨eventFile_load, ds, hds, hroot, _, List.mem_cons_self, rfl, .ofClass hevent, hprimitive,
    ?_⟩
  exact (Model.declared_type_spec eventFile_load hds hroot List.mem_cons_self
    (.ofClass hevent)).1 hprimitive

/-- In the model of events, the declared class of dates has a data type, but its name resolves to
a library type, and the declared container has no data type. -/
theorem eventModel_not_declared :
    eventFile.load .json = .ok eventModel ∧ ∃ ds,
      eventModel.descriptors (Model.standardSetting Model.defaultServiceUrl) = .ok ds ∧
        eventClass ∈ eventModel.classes ∧
          (∃ p ∈ eventClass.properties, eventModel.DeclaredAs (.ofClass dateClass) p.type ∧
            eventModel.Calls Cpp.naming (.ofClass dateClass) .dataType "Date" ∧
              Target.standard.resolve p.type = .system "std::wstring") ∧
          ∃ p ∈ eventClass.properties, eventModel.DeclaredAs (.ofClass rootClass) p.type ∧
            ∀ x, ¬ eventModel.Calls Cpp.naming (.ofClass rootClass) .dataType x := by
  have hdate : dateClass ∈ eventModel.classes := by decide
  have hroot : rootClass ∈ eventModel.classes := by decide
  refine ⟨eventFile_load, _, rfl, by decide, ⟨_, List.mem_cons_self, .ofClass hdate, ?_, ?_⟩,
    _, List.mem_cons_of_mem _ List.mem_cons_self, .ofClass hroot, ?_⟩
  · exact Model.calls_of_mem_bindings
      (Model.mem_bindings_ofClass.mpr ⟨hdate, ClassDecl.dataType_mem_roles.mpr (by decide)⟩)
  · decide +kernel
  · rintro x ⟨hmem, -⟩
    exact ClassDecl.dataType_mem_roles.mp (Model.mem_bindings_ofClass.mp hmem).2 rfl

end SdkHeaders
