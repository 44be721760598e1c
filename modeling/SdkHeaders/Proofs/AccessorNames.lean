import SdkHeaders.Proofs.LoadedModel
import SdkHeaders.Proofs.ReservedWords
import SdkHeaders.Proofs.UniqueNames

/-!
# Names of accessors

What the methods without parameters of builders and clients are called: the accessors of navigation
properties by the capitalized names of these, and the method by which a builder makes its request.
The properties of a class have distinct names, but not distinct capitalized ones.

Main results:

- Theorem `Header.Contract.accessorNames_entity`: an interface and its implementation have the
  same accessors.
- Theorem `Model.eq_of_capitalize_eq`: two collections of one class that have descriptors differ in
  their capitalized names.
- Theorem `SourceFile.accessorNames_nodup_iff_of_load`: the accessors of a declaration of a loaded
  model have distinct names exactly if no single-valued navigation property shares its capitalized
  name with another one, and in a builder none is called like the method that makes the request.
- Theorem `staffModel_repeats`: there are loaded models in which this does not hold.
-/

namespace SdkHeaders

open Header Text

/-! ## Declared accessors -/

/-- The names of those methods that have no parameters. -/
def accessorsAmong (methods : List Signature) : List String :=
  (methods.filter (·.parameters.isEmpty)).map Signature.name

/-- The names of the methods without parameters that a declaration asks for or defines. -/
def Header.Declaration.accessorNames (d : Declaration) : List String :=
  accessorsAmong (d.prototypes ++ d.methods.map Method.signature)

/-- The names by which the navigation properties of a class are followed. -/
def ClassDecl.linkNames (c : ClassDecl) : List String :=
  c.navigations.map fun p => capitalize p.name

/-- Both facets of a contract have its methods without parameters as accessors. -/
theorem Header.Contract.accessorNames_entity (c : Contract) (role : Role)
    (name interface : String) :
    (c.entity role name interface).declaration.accessorNames =
      accessorsAmong (c.methods.map Method.signature) := by
  change (c.declaration name interface role.facet).accessorNames = _
  rw [Declaration.accessorNames]
  cases role.facet with
  | interface =>
      rw [declaration, prototypes_interfaceDeclaration, methods_interfaceDeclaration, List.map_nil,
        List.append_nil]
  | implementation =>
      rw [declaration, prototypes_implementationDeclaration, methods_implementationDeclaration,
        List.nil_append]

/-- The accessors of navigation properties have no parameters and the capitalized names. -/
theorem accessorsAmong_navigationMethods (transport : Transport) (c : ClassDecl) :
    accessorsAmong ((navigationMethods Cpp.naming transport c).map Method.signature) =
      c.linkNames := by
  unfold navigationMethods ClassDecl.linkNames
  induction c.navigations with
  | nil => rfl
  | cons p rest ih =>
      have hname : Cpp.naming.methodName p = capitalize p.name :=
        Cpp.typeName_eq_capitalize p.name
      change Cpp.naming.methodName p :: accessorsAmong _ = _
      rw [hname, ih, List.map_cons]

section Contracts

variable {serviceUrl : String} {c : ClassDecl} {names : List TypeName} {e : Entity} {f : Facet}

theorem accessorNames_requestBuilder
    (h : Rendered (Model.standardSetting serviceUrl) (.ofClass c) (.requestBuilder f) names e) :
    e.declaration.accessorNames = "CreateRequest" :: c.linkNames := by
  cases h with
  | facet hcontract =>
      cases hcontract with
      | requestBuilder =>
          rw [Contract.accessorNames_entity, ← accessorsAmong_navigationMethods .held]
          rfl

theorem accessorNames_client
    (h : Rendered (Model.standardSetting serviceUrl) (.ofClass c) (.client f) names e) :
    e.declaration.accessorNames = c.linkNames := by
  cases h with
  | facet hcontract =>
      cases hcontract with
      | client =>
          rw [Contract.accessorNames_entity, ← accessorsAmong_navigationMethods .self]
          rfl

theorem accessorNames_collectionRequestBuilder {p : Property}
    (h : Rendered (Model.standardSetting serviceUrl) (.ofProperty c p)
      (.collectionRequestBuilder f) names e) :
    e.declaration.accessorNames = ["CreateRequest"] := by
  cases h with
  | facet hcontract =>
      cases hcontract with
      | collectionRequestBuilder =>
          rw [Contract.accessorNames_entity]
          rfl

end Contracts

/-! ## Distinct names -/

/-- No single-valued navigation property of a class shares its capitalized name with another
navigation property. -/
def ClassDecl.LinksApart (c : ClassDecl) : Prop :=
  ∀ p ∈ c.navigations, p.collection = false →
    ∀ q ∈ c.navigations, capitalize p.name = capitalize q.name → p = q

instance (c : ClassDecl) : Decidable c.LinksApart :=
  inferInstanceAs (Decidable (∀ p ∈ c.navigations, _))

/-- Two collections of a class in a model with descriptors differ in their capitalized names, since
their declarations would have the same names otherwise. -/
theorem Model.eq_of_capitalize_eq {model : Model} {serviceUrl : String} {ds : List Descriptor}
    (hds : model.descriptors (standardSetting serviceUrl) = .ok ds) {c : ClassDecl}
    (hc : c ∈ model.classes) {p q : Property} (hp : p ∈ c.boundCollections)
    (hq : q ∈ c.boundCollections) (h : capitalize p.name = capitalize q.name) : p = q := by
  have hbinding : ∀ r ∈ c.boundCollections,
      (.ofProperty c r, .collectionResponse) ∈ model.bindings := by
    intro r hr
    exact mem_bindings_ofProperty.mpr ⟨hc, hr, by decide⟩
  have hname : Cpp.naming.roleName (.ofProperty c p) .collectionResponse =
      Cpp.naming.roleName (.ofProperty c q) .collectionResponse := by
    have htype : Cpp.naming.toType p.name = Cpp.naming.toType q.name := h
    simp only [Naming.roleName, Naming.baseName, Naming.collectionName, htype]
  have hpair := eq_of_roleName_eq hds (hbinding p hp) (hbinding q hq) hname
  injection hpair with helement
  injection helement

/-- The accessors of the navigation properties of a class have distinct names exactly if no
single-valued one shares its capitalized name. -/
theorem ClassDecl.linkNames_nodup_iff {c : ClassDecl}
    (hnodup : (c.properties.map Property.name).Nodup)
    (hcollections : ∀ p ∈ c.navigations, p.collection = true → ∀ q ∈ c.navigations,
      q.collection = true → capitalize p.name = capitalize q.name → p = q) :
    c.linkNames.Nodup ↔ c.LinksApart := by
  have hnavigations : c.navigations.Nodup := hnodup.of_map.filter _
  rw [linkNames, List.nodup_map_iff_inj_on hnavigations]
  constructor
  · intro hinj p hp _ q hq hname
    exact hinj p hp q hq hname
  · -- Of two collections, the names of their declarations tell that they are the same.
    intro happart p hp q hq hname
    by_cases hpc : p.collection = true
    · by_cases hqc : q.collection = true
      · exact hcollections p hp hpc q hq hqc hname
      · exact (happart q hq (Bool.eq_false_of_not_eq_true hqc) p hp hname.symm).symm
    · exact happart p hp (Bool.eq_false_of_not_eq_true hpc) q hq hname

section Loaded

variable {file : SourceFile} {format : Format} {model : Model}
  (hload : file.load format = .ok model) {serviceUrl : String} {ds : List Descriptor}
  (hds : model.descriptors (Model.standardSetting serviceUrl) = .ok ds)

include hload hds

/-- In a loaded model with descriptors, the navigation properties of a class that is not complex
have distinct accessors exactly if no single-valued one shares its capitalized name. -/
theorem SourceFile.linkNames_nodup_iff_of_load {c : ClassDecl} (hc : c ∈ model.classes)
    (hkind : c.kind ≠ .complex) : c.linkNames.Nodup ↔ c.LinksApart := by
  have hbound : ∀ p ∈ c.navigations, p.collection = true → p ∈ c.boundCollections := by
    intro p hp hcollection
    obtain ⟨hproperty, hnavigation⟩ := ClassDecl.mem_navigations_iff.mp hp
    exact ClassDecl.mem_boundCollections_iff.mpr ⟨hkind, hproperty, hnavigation, hcollection⟩
  apply ClassDecl.linkNames_nodup_iff (properties_nodup_of_load hload hc)
  intro p hp hpc q hq hqc hname
  exact Model.eq_of_capitalize_eq hds hc (hbound p hp hpc) (hbound q hq hqc) hname

/-- The headers of a loaded model with descriptors are those of its bindings.  A request builder of
a class declares the method that makes the request and an accessor for each navigation property, and
a client declares these accessors, in both facets.  They have distinct names exactly if no
single-valued navigation property shares its capitalized name with another one, and in a request
builder none is called like the method that makes the request.  The builder of a collection only
declares that method without parameters. -/
theorem SourceFile.accessorNames_nodup_iff_of_load :
    ∃ es, model.entities (Model.standardSetting serviceUrl) = .ok es ∧
      (∀ e, e ∈ es ↔
        ∃ element role, model.Renders (Model.standardSetting serviceUrl) element role e) ∧
      (∀ c f e, model.Renders (Model.standardSetting serviceUrl) (.ofClass c)
          (.requestBuilder f) e →
        e.declaration.accessorNames = "CreateRequest" :: c.linkNames ∧
          (e.declaration.accessorNames.Nodup ↔ c.LinksApart ∧ "CreateRequest" ∉ c.linkNames)) ∧
      (∀ c f e, model.Renders (Model.standardSetting serviceUrl) (.ofClass c) (.client f) e →
        e.declaration.accessorNames = c.linkNames ∧
          (e.declaration.accessorNames.Nodup ↔ c.LinksApart)) ∧
      ∀ c p f e, model.Renders (Model.standardSetting serviceUrl) (.ofProperty c p)
          (.collectionRequestBuilder f) e →
        e.declaration.accessorNames = ["CreateRequest"] := by
  obtain ⟨es, hes⟩ := Model.exists_entities hds
  refine ⟨es, hes, fun e => Model.mem_entities_iff hes, ?_, ?_, ?_⟩
  · intro c f e hrenders
    obtain ⟨hc, hrole⟩ := Model.mem_bindings_ofClass.mp hrenders.mem_bindings
    obtain ⟨names, hrendered⟩ := hrenders.exists_rendered
    have hentity : c.kind = .entity := ClassDecl.requestBuilder_mem_roles.mp hrole
    have hnames := accessorNames_requestBuilder hrendered
    have hlinks := linkNames_nodup_iff_of_load hload hds hc (by simp [hentity])
    refine ⟨hnames, ?_⟩
    rw [hnames, List.nodup_cons, hlinks, and_comm]
  · intro c f e hrenders
    obtain ⟨hc, hrole⟩ := Model.mem_bindings_ofClass.mp hrenders.mem_bindings
    obtain ⟨names, hrendered⟩ := hrenders.exists_rendered
    have hcontainer : c.kind = .container := ClassDecl.client_mem_roles.mp hrole
    have hnames := accessorNames_client hrendered
    refine ⟨hnames, ?_⟩
    rw [hnames]
    exact linkNames_nodup_iff_of_load hload hds hc (by simp [hcontainer])
  · intro c p f e hrenders
    obtain ⟨names, hrendered⟩ := hrenders.exists_rendered
    exact accessorNames_collectionRequestBuilder hrendered

end Loaded

/-- A document about a class with two navigation properties that differ in their first letter and
one that is called like the method that makes requests, and a container. -/
def staffFile : SourceFile where
  name := "model.json"
  text := "[\"demo\", [], [[\"user\", \"entity\", null, [[\"manager\", \"user\", false, true], " ++
    "[\"Manager\", \"user\", false, true], [\"createRequest\", \"user\", false, true]]], " ++
    "[\"staff\", \"container\", null, [[\"me\", \"user\", false, true], " ++
    "[\"users\", \"user\", true, true]]]]]"

/-- A navigation property. -/
def navigationProperty (owner name type : String) (collection : Bool) : Property where
  name := name
  owner := owner
  type := type
  collection := collection
  navigation := true
  description := none

/-- The class of users. -/
def userClass : ClassDecl where
  name := "user"
  kind := .entity
  base := none
  properties :=
    [navigationProperty "user" "manager" "user" false,
      navigationProperty "user" "Manager" "user" false,
      navigationProperty "user" "createRequest" "user" false]

/-- The container of users. -/
def staffClass : ClassDecl where
  name := "staff"
  kind := .container
  base := none
  properties :=
    [navigationProperty "staff" "me" "user" false,
      navigationProperty "staff" "users" "user" true]

/-- The model of users. -/
def staffModel : Model :=
  ((Model.new "demo").addClass userClass).addClass staffClass

theorem load_staffFile : staffFile.load .json = .ok staffModel := by
  decide +kernel

/-- The client of users can tell its accessors apart, and the builder of requests for users can
not. -/
theorem staffModel_accessorNames :
    staffFile.load .json = .ok staffModel ∧ staffClass.LinksApart ∧ ¬ userClass.LinksApart ∧
      ∃ es, staffModel.entities (Model.standardSetting Model.defaultServiceUrl) = .ok es ∧
        (∃ e ∈ es, e.name = "Staff" ∧ e.declaration.accessorNames = ["Me", "Users"] ∧
          e.declaration.accessorNames.Nodup) ∧
        ∃ e ∈ es, e.name = "UserRequestBuilder" ∧ ¬ e.declaration.accessorNames.Nodup := by
  have hstaff : staffClass.LinksApart := by decide
  have huser : ¬ userClass.LinksApart := by decide
  have hclient : (.ofClass staffClass, .client .implementation) ∈ staffModel.bindings :=
    Model.mem_bindings_ofClass.mpr
      ⟨List.mem_cons_of_mem userClass List.mem_cons_self, ClassDecl.client_mem_roles.mpr rfl⟩
  have hbuilder : (.ofClass userClass, .requestBuilder .implementation) ∈ staffModel.bindings :=
    Model.mem_bindings_ofClass.mpr
      ⟨List.mem_cons_self, ClassDecl.requestBuilder_mem_roles.mpr rfl⟩
  obtain ⟨ds, hds⟩ : ∃ ds,
      staffModel.descriptors (Model.standardSetting Model.defaultServiceUrl) = .ok ds := ⟨_, rfl⟩
  obtain ⟨es, hes, hmem, hbuilders, hclients, -⟩ :=
    SourceFile.accessorNames_nodup_iff_of_load load_staffFile hds
  refine ⟨load_staffFile, hstaff, huser, es, hes, ?_, ?_⟩
  · obtain ⟨e, names, hrenders, hrendered⟩ := Model.exists_renders _ hclient
    obtain ⟨hnames, hnodup⟩ := hclients _ _ _ hrenders
    refine ⟨e, (hmem e).mpr ⟨_, _, hrenders⟩, ?_, ?_, hnodup.mpr hstaff⟩
    · rw [hrendered.spec.1]
      decide
    · rw [hnames]
      decide
  · obtain ⟨e, names, hrenders, hrendered⟩ := Model.exists_renders _ hbuilder
    obtain ⟨-, hnodup⟩ := hbuilders _ _ _ hrenders
    refine ⟨e, (hmem e).mpr ⟨_, _, hrenders⟩, ?_, fun h => huser (hnodup.mp h).1⟩
    rw [hrendered.spec.1]
    decide

/-- The builder of requests for users and its interface declare two accessors twice, although the
descriptors of the model have names that can stand side by side. -/
theorem staffModel_repeats :
    staffFile.load .json = .ok staffModel ∧
      (∃ ds, staffModel.descriptors (Model.standardSetting Model.defaultServiceUrl) = .ok ds) ∧
        ∀ f, ∃ e, staffModel.Renders (Model.standardSetting Model.defaultServiceUrl)
            (.ofClass userClass) (.requestBuilder f) e ∧
          e.declaration.accessorNames =
              ["CreateRequest", "Manager", "Manager", "CreateRequest"] ∧
            ¬ e.declaration.accessorNames.Nodup := by
  refine ⟨load_staffFile, ⟨_, rfl⟩, ?_⟩
  intro f
  have hbinding : (.ofClass userClass, .requestBuilder f) ∈ staffModel.bindings :=
    Model.mem_bindings_ofClass.mpr
      ⟨List.mem_cons_self, ClassDecl.requestBuilder_mem_roles.mpr rfl⟩
  obtain ⟨e, names, hrenders, hrendered⟩ :=
    Model.exists_renders (Model.standardSetting Model.defaultServiceUrl) hbinding
  have hnames := accessorNames_requestBuilder hrendered
  have hlinks : userClass.linkNames = ["Manager", "Manager", "CreateRequest"] := by decide
  rw [hlinks] at hnames
  refine ⟨e, hrenders, hnames, ?_⟩
  rw [hnames]
  decide

end SdkHeaders
