import SdkHeaders.Document.Load
import SdkHeaders.Proofs.References
import SdkHeaders.Proofs.UniqueNames

/-!
# Included headers

Where the headers come from that the headers of a model include in quotes.  A single-valued
navigation property of an entity class leads to a builder that is called after the property;
it is the only reference that may lead to no header at all.

Main results:

- Structure `Model.Linked` says that the types and the bases of a model are declared.
- Relation `AstrayLink` describes the references that lead to no entity class.
- Theorem `Model.included_header_origin`: all other included headers are either headers of the
  framework or generated headers.
-/

namespace SdkHeaders

open Header

/-! ## Models with declared types -/

/-- The model declares a type with a data header: an enumeration, or a class that is not the
container. -/
def Model.HasData (model : Model) (type : String) : Prop :=
  (∃ e ∈ model.enums, e.name = type) ∨
    ∃ c ∈ model.classes, c.kind ≠ .container ∧ c.name = type

/-- The types and the bases of a model are declared. -/
structure Model.Linked (target : Target) (model : Model) : Prop where
  /-- A property that leads nowhere has a primitive type or a type with a data header. -/
  values : ∀ c ∈ model.classes, ∀ p ∈ c.properties, p.navigation = false →
    (target.primitive? p.type).isSome = true ∨ model.HasData p.type
  /-- A navigation property has an entity class as its type. -/
  navigations : ∀ c ∈ model.classes, ∀ p ∈ c.properties, p.navigation = true →
    ∃ k ∈ model.classes, k.kind = .entity ∧ k.name = p.type
  /-- A base is a class that is not the container. -/
  bases : ∀ c ∈ model.classes, ∀ b, c.base = some b →
    ∃ k ∈ model.classes, k.kind ≠ .container ∧ k.name = b

/-- A name is that of the builder for a single-valued navigation property of an entity class,
referred to by the request builder of the class, and no entity class is called like the
property. -/
inductive AstrayLink (model : Model) (naming : Naming) : Element → Role → String → Prop
  /-- The builder is called after the property. -/
  | intro {c : ClassDecl} {p : Property} {f g : Facet} (hc : c ∈ model.classes)
      (hkind : c.kind = .entity) (hp : p ∈ c.navigations) (hsingle : p.collection = false)
      (hnone : ∀ k ∈ model.classes, k.kind = .entity →
        naming.toType k.name ≠ naming.toType p.name) :
      AstrayLink model naming (.ofClass c) (.requestBuilder f)
        (naming.builderName g (naming.toType p.name))

section Links

variable {model : Model} {target : Target} {element : Element} {role : Role}

/-- A type with a data header is declared under its type name. -/
theorem Model.HasData.declares {type : String} (h : model.HasData type) (naming : Naming) :
    model.Declares naming (naming.typeName type) := by
  rcases h with ⟨e, he, rfl⟩ | ⟨c, hc, hkind, rfl⟩
  · exact ⟨.ofEnum e, .dataType, mem_bindings_ofEnum.mpr ⟨he, rfl⟩, (Naming.typeName_enum e).symm⟩
  · exact ⟨.ofClass c, .dataType,
      mem_bindings_ofClass.mpr ⟨hc, ClassDecl.dataType_mem_roles.mpr hkind⟩,
      (Naming.typeName_class c).symm⟩

/-- The builder called after an entity class is declared. -/
theorem Model.declares_builderName {k : ClassDecl} (hk : k ∈ model.classes)
    (hkind : k.kind = .entity) (naming : Naming) (f : Facet) :
    model.Declares naming (naming.builderName f (naming.toType k.name)) :=
  ⟨.ofClass k, .requestBuilder f,
    mem_bindings_ofClass.mpr ⟨hk, ClassDecl.requestBuilder_mem_roles.mpr hkind⟩,
    (Naming.builderName_class k f).symm⟩

/-- The builder for a collection-valued navigation property is declared. -/
theorem Model.declares_linkedBuilder {c : ClassDecl} {p : Property} (hc : c ∈ model.classes)
    (hkind : c.kind ≠ .complex) (hp : p ∈ c.navigations) (hcollection : p.collection = true)
    (naming : Naming) (f : Facet) : model.Declares naming (naming.linkedBuilder c p f) := by
  obtain ⟨hproperty, hnavigation⟩ := ClassDecl.mem_navigations_iff.mp hp
  have hbound : p ∈ c.boundCollections :=
    ClassDecl.mem_boundCollections_iff.mpr ⟨hkind, hproperty, hnavigation, hcollection⟩
  exact ⟨.ofProperty c p, .collectionRequestBuilder f,
    mem_bindings_ofProperty.mpr ⟨hc, hbound, by cases f <;> decide⟩,
    (Naming.linkedBuilder_of_collection f hcollection).symm⟩

/-- The declared type of a property is declared. -/
theorem Model.Linked.declares_typeName (hlinked : model.Linked target) {c : ClassDecl}
    {p : Property} (hc : c ∈ model.classes) (hp : p ∈ c.properties)
    (h : target.primitive? p.type = none) (naming : Naming) :
    model.Declares naming (naming.typeName p.type) := by
  cases hnavigation : p.navigation with
  | false =>
      rcases hlinked.values c hc p hp hnavigation with hprimitive | hdata
      · simp [h] at hprimitive
      · exact hdata.declares naming
  | true =>
      obtain ⟨k, hk, hkind, hname⟩ := hlinked.navigations c hc p hp hnavigation
      have hdata : model.HasData p.type := Or.inr ⟨k, hk, by simp [hkind], hname⟩
      exact hdata.declares naming

/-- The builder called after the type of a navigation property is declared. -/
theorem Model.Linked.declares_builderName (hlinked : model.Linked target) {c : ClassDecl}
    {p : Property} (hc : c ∈ model.classes) (hp : p ∈ c.properties)
    (hnavigation : p.navigation = true) (naming : Naming) (f : Facet) :
    model.Declares naming (naming.builderName f (naming.toType p.type)) := by
  obtain ⟨k, hk, hkind, hname⟩ := hlinked.navigations c hc p hp hnavigation
  rw [← hname]
  exact Model.declares_builderName hk hkind naming f

/-- A name that a header refers to is a name of the framework, is declared, or is that of a
builder that leads to no entity class. -/
theorem Model.Linked.origin_of_refers (hlinked : model.Linked target) {x : String}
    (h : Refers model target element role (.user x)) :
    x ∈ Cpp.frameworkTypes ∨ model.Declares target.naming x ∨
      AstrayLink model target.naming element role x := by
  cases h with
  | framework hx => exact Or.inl hx
  | declared hc hp hnone => exact Or.inr (Or.inl (hlinked.declares_typeName hc hp hnone _))
  | base hc hb =>
      obtain ⟨k, hk, hkind, hname⟩ := hlinked.bases _ hc _ hb
      exact Or.inr (Or.inl (Model.HasData.declares (Or.inr ⟨k, hk, hkind, hname⟩) _))
  | sibling hmem => exact Or.inr (Or.inl ⟨_, _, hmem, rfl⟩)
  | @link c p f g hc hkind hp =>
      cases hcollection : p.collection with
      | true =>
          exact Or.inr (Or.inl
            (Model.declares_linkedBuilder hc (by simp [hkind]) hp hcollection _ g))
      | false =>
          rw [Naming.linkedBuilder_of_single g hcollection (by simp [hkind])]
          by_cases hcalled : ∃ k ∈ model.classes, k.kind = .entity ∧
              target.naming.toType k.name = target.naming.toType p.name
          · obtain ⟨k, hk, hentity, hname⟩ := hcalled
            rw [← hname]
            exact Or.inr (Or.inl (Model.declares_builderName hk hentity _ g))
          · refine Or.inr (Or.inr (.intro hc hkind hp hcollection ?_))
            exact fun k hk hentity hname => hcalled ⟨k, hk, hentity, hname⟩
  | @clientLink c p f g hc hkind hp =>
      obtain ⟨hproperty, hnavigation⟩ := ClassDecl.mem_navigations_iff.mp hp
      cases hcollection : p.collection with
      | true =>
          exact Or.inr (Or.inl
            (Model.declares_linkedBuilder hc (by simp [hkind]) hp hcollection _ g))
      | false =>
          rw [Naming.linkedBuilder_of_container g hcollection hkind]
          exact Or.inr (Or.inl (hlinked.declares_builderName hc hproperty hnavigation _ g))
  | item hc hp =>
      obtain ⟨-, hproperty, hnavigation, -⟩ := ClassDecl.mem_boundCollections_iff.mp hp
      exact Or.inr (Or.inl (hlinked.declares_builderName hc hproperty hnavigation _ _))

end Links

/-! ## Headers of a model -/

namespace Model

/-- The headers of the types of the framework. -/
def frameworkHeaders : List String :=
  Target.standard.frameworkTypes.map Target.standard.headerFile

/-- The file names of a model are the header files of the names that the model declares. -/
theorem headerFile_mem_files {model : Model} {setting : Setting} {fs : List (String × String)}
    (h : model.files setting = .ok fs) {x : String} :
    setting.target.headerFile x ∈ fs.map Prod.fst ↔
      model.Declares setting.target.naming x := by
  obtain ⟨es, hes, rfl⟩ := files_eq_ok_iff.mp h
  rw [← mem_names_entities hes, List.map_map, List.mem_map, List.mem_map]
  constructor
  · rintro ⟨e, he, heq⟩
    exact ⟨e, he, headerFile_injective setting.target heq⟩
  · rintro ⟨e, he, rfl⟩
    exact ⟨e, he, rfl⟩

/-- No declared name is a name of the framework. -/
theorem not_mem_frameworkTypes_of_declares {model : Model} {setting : Setting}
    {ds : List Descriptor} (h : model.descriptors setting = .ok ds) {x : String}
    (hx : model.Declares setting.target.naming x) : x ∉ setting.target.frameworkTypes := by
  obtain ⟨hbind, hunique⟩ := descriptors_eq_ok_iff.mp h
  obtain ⟨element, role, hmem, rfl⟩ := hx
  obtain ⟨d, hd, rfl, rfl⟩ := (mem_bindings_iff hbind).mp hmem
  exact ((checkUnique_eq_ok_iff ds).mp hunique).2 d hd

/-- Where a header comes from that a header of a model includes in quotes. -/
inductive HeaderOrigin (model : Model) (fs : List (String × String)) (e : Entity) :
    String → Prop
  /-- It is a header of the framework and no generated header. -/
  | framework {header : String} (h : header ∈ frameworkHeaders)
      (hother : header ∉ fs.map Prod.fst) : HeaderOrigin model fs e header
  /-- It is a generated header and no header of the framework. -/
  | generated {header : String} (h : header ∈ fs.map Prod.fst)
      (hother : header ∉ frameworkHeaders) : HeaderOrigin model fs e header
  /-- It is neither, and it would belong to a builder that leads to no entity class. -/
  | astray {element : Element} {x : String}
      (hname : e.name = Cpp.naming.roleName element e.role)
      (hlink : AstrayLink model Cpp.naming element e.role x)
      (hframework : Target.standard.headerFile x ∉ frameworkHeaders)
      (hgenerated : Target.standard.headerFile x ∉ fs.map Prod.fst) :
      HeaderOrigin model fs e (Target.standard.headerFile x)

/-- In a model with declared types, a header in quotes is a header of the framework or a
generated header and never both, unless it would belong to a builder that is called after a
single-valued navigation property and leads to no entity class. -/
theorem included_header_origin {model : Model} {serviceUrl : String} {ds : List Descriptor}
    (hlinked : model.Linked .standard)
    (hds : model.descriptors (standardSetting serviceUrl) = .ok ds) :
    ∃ es fs, model.entities (standardSetting serviceUrl) = .ok es ∧
      model.files (standardSetting serviceUrl) = .ok fs ∧
        ∀ e ∈ es, ∀ header ∈ (e.includes .standard).user.toList,
          HeaderOrigin model fs e header := by
  obtain ⟨es, hes⟩ := exists_entities hds
  have hfs := files_eq_ok_iff.mpr ⟨es, hes, rfl⟩
  refine ⟨es, _, hes, hfs, ?_⟩
  intro e he header hheader
  obtain ⟨element, role, names, hmem, hrendered⟩ := exists_rendered hes he
  obtain ⟨x, hxnames, rfl⟩ := hrendered.exists_of_mem_includes hheader
  obtain ⟨hname, rfl, -⟩ := hrendered.spec
  have hframework : Target.standard.headerFile x ∈ frameworkHeaders ↔
      x ∈ Target.standard.frameworkTypes :=
    List.mem_map_of_injective (headerFile_injective Target.standard)
  have hexclusive : Target.standard.headerFile x ∈ frameworkHeaders →
      ¬ model.Declares Cpp.naming x := fun h hx =>
    not_mem_frameworkTypes_of_declares hds hx (hframework.mp h)
  have hgenerated : Target.standard.headerFile x ∈ _ ↔ model.Declares Cpp.naming x :=
    headerFile_mem_files hfs
  -- a link that leads to no entity class may still meet the name of another header
  rcases hlinked.origin_of_refers (hrendered.refers hmem _ hxnames) with hx | hx | hx
  · have hx' := hframework.mpr hx
    exact .framework hx' (mt hgenerated.mp (hexclusive hx'))
  · exact .generated (hgenerated.mpr hx) fun h => hexclusive h hx
  · by_cases hx' : Target.standard.headerFile x ∈ frameworkHeaders
    · exact .framework hx' (mt hgenerated.mp (hexclusive hx'))
    · by_cases hdeclared : model.Declares Cpp.naming x
      · exact .generated (hgenerated.mpr hdeclared) hx'
      · exact .astray hname hx hx' (mt hgenerated.mp hdeclared)

end Model

/-! ## A model with an astray link -/

/-- A document about users, each of whom has a person as manager. -/
def managerFile : SourceFile where
  name := "model.json"
  text :=
    "[\"demo\", [], [[\"user\", \"entity\", null, [[\"manager\", \"person\", false, true]]]," ++
      " [\"person\", \"entity\"]]]"

/-- The model of users with a manager. -/
def managerModel : Model :=
  .ofFile
    { space := "demo"
      enums := []
      classes :=
        [⟨"user", .entity, none, [⟨"manager", "person", false, true, none, ""⟩]⟩,
          ⟨"person", .entity, none, []⟩] }

/-- The types of users with a manager are declared. -/
theorem managerModel_linked : managerModel.Linked .standard where
  values := by
    unfold Model.HasData
    decide
  navigations := by decide
  bases := by
    intro c hc b hb
    have hnone : ∀ c ∈ managerModel.classes, c.base = none := by decide
    rw [hnone c hc] at hb
    cases hb

/-- The headers that the headers of users with a manager include come from where the headers
of models with declared types come from. -/
theorem managerModel_header_origin :
    managerModel.Linked .standard ∧ ∃ ds,
      managerModel.descriptors (Model.standardSetting Model.defaultServiceUrl) = .ok ds ∧
        ∃ es fs, managerModel.entities (Model.standardSetting Model.defaultServiceUrl) = .ok es ∧
          managerModel.files (Model.standardSetting Model.defaultServiceUrl) = .ok fs ∧
            ∀ e ∈ es, ∀ header ∈ (e.includes .standard).user.toList,
              Model.HeaderOrigin managerModel fs e header :=
  ⟨managerModel_linked, _, rfl, Model.included_header_origin managerModel_linked rfl⟩

/-- The request builder of users with a manager includes a header that is neither a header of
the framework nor a generated one. -/
theorem managerModel_astray :
    managerFile.load .json = .ok managerModel ∧ managerModel.Linked .standard ∧
      ∃ es fs, managerModel.entities (Model.standardSetting Model.defaultServiceUrl) = .ok es ∧
        managerModel.files (Model.standardSetting Model.defaultServiceUrl) = .ok fs ∧
          ∃ e ∈ es, e.name = "UserRequestBuilder" ∧
            "ManagerRequestBuilder.h" ∈ (e.includes .standard).user.toList ∧
              "ManagerRequestBuilder.h" ∉ Model.frameworkHeaders ∧
                "ManagerRequestBuilder.h" ∉ fs.map Prod.fst := by
  refine ⟨by decide +kernel, managerModel_linked, _, _, rfl, rfl, ?_⟩
  decide +kernel

end SdkHeaders
