import Mathlib.Data.List.Forall2
import SdkHeaders.Proofs.Rendered

/-!
# From bindings to headers

How the descriptors, the entities and the files of a model are related to each other when
they can be derived.

Main results:

- Theorem `Model.bind_eq_ok_iff`: the descriptors are the bindings of the model in order, and
  by theorem `Model.exists_bind` every model has them.
- Theorem `Descriptor.render_name`: a header declares the name of its descriptor.
- Theorems `Model.mem_bindings_ofEnum`, `Model.mem_bindings_ofClass` and
  `Model.mem_bindings_ofProperty` say which roles the elements of a model play.
- Theorem `Model.entities_eq_ok_iff`: a model has one entity for each descriptor, in order.
- Theorem `Model.files_eq_ok_iff`: a model has one file for each entity, in order.
- Theorem `Model.exists_rendered`: every header of a model is that of one of its bindings, and by
  theorem `Model.exists_renders` every binding has one.
- Relation `Model.Renders` gives the header of a binding, and by theorem `Model.mem_entities_iff`
  the entities of a model are these.
-/

namespace SdkHeaders

/-! ## Traversals that can fail -/

/-- A traversal succeeds exactly if it succeeds at every element. -/
theorem mapM_eq_ok_iff {α β ε : Type} {f : α → Except ε β} {as : List α} {bs : List β} :
    as.mapM f = .ok bs ↔ List.Forall₂ (fun a b => f a = .ok b) as bs := by
  induction as generalizing bs with
  | nil =>
      rw [List.mapM_nil, List.forall₂_nil_left_iff]
      constructor
      · intro h
        cases h
        rfl
      · rintro rfl
        rfl
  | cons a rest ih =>
      rw [List.mapM_cons, List.forall₂_cons_left_iff]
      cases hfirst : f a with
      | error e => simp [bind, Except.bind]
      | ok b =>
          cases hrest : rest.mapM f with
          | error e => simp [bind, Except.bind, ← ih, hrest]
          | ok others =>
              simp only [bind, Except.bind, pure, Except.pure, Except.ok.injEq, ← ih, hrest,
                exists_and_left, exists_eq_left']
              exact eq_comm

/-- Every element on the right of two related lists is related to one on the left. -/
theorem exists_left_of_mem {α β : Type} {R : α → β → Prop} {as : List α} {bs : List β}
    (h : List.Forall₂ R as bs) {b : β} (hb : b ∈ bs) : ∃ a ∈ as, R a b := by
  induction h with
  | nil => cases hb
  | @cons a other as bs hfirst _ ih =>
      rcases List.mem_cons.mp hb with rfl | hb
      · exact ⟨a, List.mem_cons_self, hfirst⟩
      · obtain ⟨a', ha', hrel⟩ := ih hb
        exact ⟨a', List.mem_cons_of_mem a ha', hrel⟩

/-! ## Bindings -/

/-- Only a complex class or an entity class has a data type. -/
theorem ClassDecl.dataType_mem_roles {c : ClassDecl} :
    .dataType ∈ c.roles ↔ c.kind ≠ .container := by
  cases hkind : c.kind <;> simp [roles, hkind, Role.ofEntity, Role.ofContainer]

/-- Only an entity class has a request. -/
theorem ClassDecl.request_mem_roles {c : ClassDecl} {f : Facet} :
    .request f ∈ c.roles ↔ c.kind = .entity := by
  cases hkind : c.kind <;> cases f <;>
    simp [roles, hkind, Role.ofEntity, Role.ofContainer]

/-- Only an entity class has a request builder. -/
theorem ClassDecl.requestBuilder_mem_roles {c : ClassDecl} {f : Facet} :
    .requestBuilder f ∈ c.roles ↔ c.kind = .entity := by
  cases hkind : c.kind <;> cases f <;>
    simp [roles, hkind, Role.ofEntity, Role.ofContainer]

/-- Only a container has a client. -/
theorem ClassDecl.client_mem_roles {c : ClassDecl} {f : Facet} :
    .client f ∈ c.roles ↔ c.kind = .container := by
  cases hkind : c.kind <;> cases f <;>
    simp [roles, hkind, Role.ofEntity, Role.ofContainer]

/-- Navigation properties are properties that are marked so. -/
theorem ClassDecl.mem_navigations_iff {c : ClassDecl} {p : Property} :
    p ∈ c.navigations ↔ p ∈ c.properties ∧ p.navigation = true :=
  List.mem_filter

/-- The collections that are given roles are the collection-valued navigation properties of
the classes that are not complex. -/
theorem ClassDecl.mem_boundCollections_iff {c : ClassDecl} {p : Property} :
    p ∈ c.boundCollections ↔
      c.kind ≠ .complex ∧ p ∈ c.properties ∧ p.navigation = true ∧ p.collection = true := by
  unfold boundCollections collectionNavigations navigations
  by_cases hkind : c.kind = .complex
  · simp [hkind]
  · rw [if_neg hkind, List.mem_filter, List.mem_filter, and_assoc]
    simp only [ne_eq, hkind, not_false_eq_true, true_and]

namespace Model

variable {model : Model}

/-- The role of an enumeration is its data type. -/
theorem mem_bindings_ofEnum {e : EnumDecl} {role : Role} :
    (.ofEnum e, role) ∈ model.bindings ↔ e ∈ model.enums ∧ role = .dataType := by
  simp [bindings, ClassDecl.bindings, eq_comm]

/-- The roles of a class depend on its kind. -/
theorem mem_bindings_ofClass {c : ClassDecl} {role : Role} :
    (.ofClass c, role) ∈ model.bindings ↔ c ∈ model.classes ∧ role ∈ c.roles := by
  simp only [bindings, ClassDecl.bindings, List.mem_append, List.mem_map, List.mem_flatMap,
    Prod.mk.injEq, reduceCtorEq, false_and, and_false, exists_false, Element.ofClass.injEq,
    or_false, false_or]
  constructor
  · rintro ⟨_, hc, _, hrole, rfl, rfl⟩
    exact ⟨hc, hrole⟩
  · rintro ⟨hc, hrole⟩
    exact ⟨c, hc, role, hrole, rfl, rfl⟩

/-- The roles of a property are those of collections, if it is given any. -/
theorem mem_bindings_ofProperty {c : ClassDecl} {p : Property} {role : Role} :
    (.ofProperty c p, role) ∈ model.bindings ↔
      c ∈ model.classes ∧ p ∈ c.boundCollections ∧ role ∈ Role.ofCollection := by
  simp only [bindings, ClassDecl.bindings, List.mem_append, List.mem_map, List.mem_flatMap,
    Prod.mk.injEq, reduceCtorEq, false_and, and_false, exists_false, Element.ofProperty.injEq,
    false_or]
  constructor
  · rintro ⟨_, hc, _, hp, _, hrole, ⟨rfl, rfl⟩, rfl⟩
    exact ⟨hc, hp, hrole⟩
  · rintro ⟨hc, hp, hrole⟩
    exact ⟨c, hc, p, hp, role, hrole, ⟨rfl, rfl⟩, rfl⟩

end Model

/-! ## Descriptors -/

namespace Model

variable {model : Model} {setting : Header.Setting}

/-- Elements accept the roles that they play in a model. -/
theorem accepts_of_mem_bindings {element : Element} {role : Role}
    (h : (element, role) ∈ model.bindings) : element.accepts role = true := by
  cases element with
  | ofEnum e =>
      obtain ⟨-, rfl⟩ := mem_bindings_ofEnum.mp h
      rfl
  | ofClass c =>
      obtain ⟨-, hrole⟩ := mem_bindings_ofClass.mp h
      cases hkind : c.kind <;> simpa [Element.accepts, ClassDecl.roles, hkind] using hrole
  | ofProperty c p =>
      obtain ⟨-, hp, hrole⟩ := mem_bindings_ofProperty.mp h
      obtain ⟨-, -, hnavigation, hcollection⟩ := ClassDecl.mem_boundCollections_iff.mp hp
      simp [Element.accepts, Role.isCollection, hrole, hnavigation, hcollection]

/-- The descriptors of a model are its bindings, in order. -/
theorem bind_eq_ok_iff {ds : List Descriptor} :
    model.bind = .ok ds ↔ ds.map (fun d => (d.element, d.role)) = model.bindings := by
  have hnew : (fun (pair : Element × Role) d => Descriptor.new pair.1 pair.2 = .ok d) =
      fun pair d => pair = (d.element, d.role) := by
    funext pair d
    rw [Descriptor.new_eq_ok_iff, Prod.ext_iff]
    exact propext (and_congr eq_comm eq_comm)
  unfold bind
  rw [mapM_eq_ok_iff, hnew, @eq_comm _ _ model.bindings, ← List.forall₂_eq_eq_eq,
    List.forall₂_map_right_iff]

/-- Every model has descriptors. -/
theorem exists_bind (model : Model) : ∃ ds, model.bind = .ok ds := by
  refine ⟨model.bindings.pmap (fun pair h => ⟨pair.1, pair.2, h⟩)
    fun pair h => accepts_of_mem_bindings h, ?_⟩
  rw [bind_eq_ok_iff, List.map_pmap]
  simp only [List.pmap_eq_map, List.map_id']

/-- The elements and roles of the descriptors are the bindings of the model. -/
theorem mem_bindings_iff {ds : List Descriptor} (h : model.bind = .ok ds) {element : Element}
    {role : Role} :
    (element, role) ∈ model.bindings ↔ ∃ d ∈ ds, d.element = element ∧ d.role = role := by
  rw [← bind_eq_ok_iff.mp h, List.mem_map]
  simp only [Prod.mk.injEq]

/-- The descriptors of a model are bound and have names that can stand side by side. -/
theorem descriptors_eq_ok_iff {ds : List Descriptor} :
    model.descriptors setting = .ok ds ↔
      model.bind = .ok ds ∧
        checkUnique setting.target.naming setting.target.frameworkTypes ds = .ok () := by
  unfold descriptors
  cases hbind : model.bind with
  | error e => simp [Bind.bind, Except.bind]
  | ok bound =>
      cases hunique : checkUnique setting.target.naming setting.target.frameworkTypes bound with
      | error e =>
          simp only [Bind.bind, Except.bind, hunique, reduceCtorEq, Except.ok.injEq, false_iff,
            not_and]
          rintro rfl
          simp [hunique]
      | ok _ =>
          simp only [Bind.bind, Except.bind, hunique, pure, Except.pure, Except.ok.injEq,
            iff_self_and]
          rintro rfl
          exact hunique

end Model

/-! ## Entities and files -/

/-- A header declares the name of its descriptor. -/
theorem Descriptor.render_name {setting : Header.Setting} {d : Descriptor} {e : Entity}
    (h : d.render setting = .ok e) : e.name = setting.target.naming.descriptorName d := by
  obtain ⟨names, hrendered⟩ := render_eq_ok_iff.mp h
  exact hrendered.spec.1

namespace Model

variable {model : Model} {setting : Header.Setting}

/-- A model has one entity for each descriptor, in order. -/
theorem entities_eq_ok_iff {es : List Entity} :
    model.entities setting = .ok es ↔
      ∃ ds, model.descriptors setting = .ok ds ∧
        List.Forall₂ (fun d e => d.render setting = .ok e) ds es := by
  unfold entities
  cases model.descriptors setting with
  | error e => simp [Bind.bind, Except.bind]
  | ok ds => simp [Bind.bind, Except.bind, mapM_eq_ok_iff]

/-- If a model has descriptors, it has entities. -/
theorem exists_entities {ds : List Descriptor} (h : model.descriptors setting = .ok ds) :
    ∃ es, model.entities setting = .ok es := by
  have hrender : ∀ ds : List Descriptor,
      ∃ es, List.Forall₂ (fun d e => d.render setting = .ok e) ds es := by
    intro ds
    induction ds with
    | nil => exact ⟨[], .nil⟩
    | cons d rest ih =>
        obtain ⟨e, he⟩ := d.render_isOk setting
        obtain ⟨es, hes⟩ := ih
        exact ⟨e :: es, .cons he hes⟩
  obtain ⟨es, hes⟩ := hrender ds
  exact ⟨es, entities_eq_ok_iff.mpr ⟨ds, h, hes⟩⟩

/-- The entities of a model have the names of its descriptors, in order. -/
theorem map_name_entities {ds : List Descriptor} {es : List Entity}
    (h : List.Forall₂ (fun d e => d.render setting = .ok e) ds es) :
    es.map Entity.name = ds.map setting.target.naming.descriptorName := by
  induction h with
  | nil => rfl
  | cons hfirst _ ih => rw [List.map_cons, List.map_cons, Descriptor.render_name hfirst, ih]

/-- A model has one file for each entity, in order. -/
theorem files_eq_ok_iff {fs : List (String × String)} :
    model.files setting = .ok fs ↔
      ∃ es, model.entities setting = .ok es ∧
        fs = es.map fun e =>
          (setting.target.headerFile e.name, e.fileText setting.target model.headerSpace) := by
  unfold files
  cases model.entities setting with
  | error e => simp [Bind.bind, Except.bind]
  | ok es => simp [Bind.bind, Except.bind, pure, Except.pure, eq_comm]

/-! ## Headers and bindings -/

/-- A model has a header for an element in a role: it binds the element to the role, and the
descriptor of both is rendered as the header. -/
def Renders (model : Model) (setting : Header.Setting) (element : Element) (role : Role)
    (e : Entity) : Prop :=
  ∃ bound d, model.bind = .ok bound ∧ d ∈ bound ∧ d.element = element ∧ d.role = role ∧
    d.render setting = .ok e

/-- Every binding of a model has a header, whether or not the names of the model can stand side by
side. -/
theorem exists_renders (setting : Header.Setting) {element : Element} {role : Role}
    (h : (element, role) ∈ model.bindings) :
    ∃ e names, model.Renders setting element role e ∧ Rendered setting element role names e := by
  obtain ⟨bound, hbound⟩ := model.exists_bind
  obtain ⟨d, hd, rfl, rfl⟩ := (mem_bindings_iff hbound).mp h
  obtain ⟨e, he⟩ := d.render_isOk setting
  obtain ⟨names, hrendered⟩ := Descriptor.render_eq_ok_iff.mp he
  exact ⟨e, names, ⟨bound, d, hbound, hd, rfl, rfl, he⟩, hrendered⟩

/-- A model has a header for each enumeration. -/
theorem renders_enumData (setting : Header.Setting) {e : EnumDecl} (he : e ∈ model.enums) :
    model.Renders setting (.ofEnum e) .dataType (e.dataEntity setting.target) := by
  obtain ⟨entity, names, hrenders, hrendered⟩ :=
    exists_renders setting (mem_bindings_ofEnum.mpr ⟨he, rfl⟩)
  cases hrendered with
  | facet hcontract => cases hcontract
  | enumData => exact hrenders

/-- A model has a header for the data of each class but containers. -/
theorem renders_classData (setting : Header.Setting) {c : ClassDecl} (hc : c ∈ model.classes)
    (hkind : c.kind ≠ .container) :
    model.Renders setting (.ofClass c) .dataType (c.dataEntity setting.target) := by
  obtain ⟨entity, names, hrenders, hrendered⟩ :=
    exists_renders setting
      (mem_bindings_ofClass.mpr ⟨hc, ClassDecl.dataType_mem_roles.mpr hkind⟩)
  cases hrendered with
  | facet hcontract => cases hcontract
  | classData => exact hrenders

section Renders

variable {element : Element} {role : Role} {e : Entity}
  (h : model.Renders setting element role e)

include h

/-- A model binds what it has a header for. -/
theorem Renders.mem_bindings : (element, role) ∈ model.bindings := by
  obtain ⟨bound, d, hbound, hd, helement, hrole, -⟩ := h
  exact (mem_bindings_iff hbound).mpr ⟨d, hd, helement, hrole⟩

theorem Renders.exists_rendered : ∃ names, Rendered setting element role names e := by
  obtain ⟨bound, d, -, -, rfl, rfl, he⟩ := h
  exact Descriptor.render_eq_ok_iff.mp he

end Renders

/-- The entities of a model are the headers that it has for elements in their roles. -/
theorem mem_entities_iff {es : List Entity} (h : model.entities setting = .ok es) {e : Entity} :
    e ∈ es ↔ ∃ element role, model.Renders setting element role e := by
  obtain ⟨ds, hds, hrender⟩ := entities_eq_ok_iff.mp h
  obtain ⟨hbind, -⟩ := descriptors_eq_ok_iff.mp hds
  constructor
  · intro he
    obtain ⟨d, hd, hde⟩ := exists_left_of_mem hrender he
    exact ⟨d.element, d.role, ds, d, hbind, hd, rfl, rfl, hde⟩
  · rintro ⟨element, role, bound, d, hbound, hd, -, -, hde⟩
    obtain rfl : bound = ds := Except.ok.inj (hbound.symm.trans hbind)
    obtain ⟨e', he', hde'⟩ := exists_left_of_mem hrender.flip hd
    obtain rfl : e' = e := Except.ok.inj (hde'.symm.trans hde)
    exact he'

/-- Every header of a model is that of a binding of the model. -/
theorem exists_rendered {model : Model} {es : List Entity}
    (h : model.entities setting = .ok es) {e : Entity} (he : e ∈ es) :
    ∃ element role names, (element, role) ∈ model.bindings ∧
      Rendered setting element role names e := by
  obtain ⟨element, role, hrenders⟩ := (mem_entities_iff h).mp he
  obtain ⟨names, hrendered⟩ := hrenders.exists_rendered
  exact ⟨element, role, names, hrenders.mem_bindings, hrendered⟩

/-- Every binding of a model has a header. -/
theorem exists_rendered_of_binding {model : Model} {es : List Entity}
    (h : model.entities setting = .ok es) {element : Element} {role : Role}
    (hmem : (element, role) ∈ model.bindings) :
    ∃ e ∈ es, ∃ names, Rendered setting element role names e := by
  obtain ⟨e, names, hrenders, hrendered⟩ := exists_renders setting hmem
  exact ⟨e, (mem_entities_iff h).mpr ⟨element, role, hrenders⟩, names, hrendered⟩

/-- One of the headers of a model declares a name. -/
def Declares (naming : Naming) (model : Model) (name : String) : Prop :=
  ∃ element role, (element, role) ∈ model.bindings ∧ naming.roleName element role = name

/-- The names of a model's headers are those that the model declares. -/
theorem mem_names_entities {model : Model} {es : List Entity}
    (h : model.entities setting = .ok es) {name : String} :
    name ∈ es.map Entity.name ↔ model.Declares setting.target.naming name := by
  obtain ⟨ds, hds, hrender⟩ := entities_eq_ok_iff.mp h
  obtain ⟨hbind, -⟩ := descriptors_eq_ok_iff.mp hds
  rw [map_name_entities hrender, List.mem_map]
  constructor
  · rintro ⟨d, hd, rfl⟩
    exact ⟨d.element, d.role, (mem_bindings_iff hbind).mpr ⟨d, hd, rfl, rfl⟩, rfl⟩
  · rintro ⟨element, role, hmem, rfl⟩
    obtain ⟨d, hd, rfl, rfl⟩ := (mem_bindings_iff hbind).mp hmem
    exact ⟨d, hd, rfl⟩

end Model

end SdkHeaders
