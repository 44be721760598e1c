import SdkHeaders.Proofs.References

/-!
# Spelling of references

A reference from one header to another is spelled without looking at the declaration that it
leads to.  It nevertheless spells the name that the descriptor of this declaration has, whatever
the naming conventions are.

Main results:

- Relation `Naming.Calls` says that the descriptor of an element in a role has a name, and
  relation `Model.Calls` that it is besides a descriptor of the model.
- Structure `Model.SpellsReferences` lists the references and the declarations they lead to.
- Theorem `Model.spellsReferences`: every model spells its references so.
-/

namespace SdkHeaders

/-- The descriptor of an element in a role has a name. -/
def Naming.Calls (naming : Naming) (element : Element) (role : Role) (name : String) : Prop :=
  ∃ d, Descriptor.new element role = .ok d ∧ naming.descriptorName d = name

/-- A descriptor of the model, of an element in a role, has a name. -/
def Model.Calls (model : Model) (naming : Naming) (element : Element) (role : Role)
    (name : String) : Prop :=
  (element, role) ∈ model.bindings ∧ naming.Calls element role name

/-- A type name matches none of the primitive types of a target, in small or capital letters. -/
def Target.NotPrimitive (target : Target) (type : String) : Prop :=
  ∀ row ∈ target.primitiveTypes, Target.sameLetters row.1 type = false

/-- The references of a model spell the names of the declarations that they lead to. -/
structure Model.SpellsReferences (model : Model) (target : Target) : Prop where
  /-- A collection-valued navigation property leads to the request builder of its collection. -/
  collections : ∀ c ∈ model.classes, ∀ p ∈ c.navigations, p.collection = true → ∀ f,
    target.naming.Calls (.ofProperty c p) (.collectionRequestBuilder f)
        (target.naming.linkedBuilder c p f) ∧
      (c.kind ≠ .complex →
        (Element.ofProperty c p, Role.collectionRequestBuilder f) ∈ model.bindings)
  /-- A single-valued navigation property of a container leads to the request builder of the
  entity class that is its type. -/
  containers : ∀ c ∈ model.classes, c.kind = .container → ∀ p ∈ c.navigations,
    p.collection = false → ∀ k ∈ model.classes, k.kind = .entity → k.name = p.type → ∀ f,
      model.Calls target.naming (.ofClass k) (.requestBuilder f)
        (target.naming.linkedBuilder c p f)
  /-- An item of a collection has the request builder of the entity class that is its type. -/
  items : ∀ c ∈ model.classes, ∀ p ∈ c.properties, p.collection = true →
    ∀ k ∈ model.classes, k.kind = .entity → k.name = p.type → ∀ f,
      model.Calls target.naming (.ofClass k) (.requestBuilder f) (target.naming.itemBuilder p f)
  /-- The base of a class is the data type of the class that is named as base. -/
  bases : ∀ c ∈ model.classes, ∀ b ∈ model.classes, c.base = some b.name →
    ∃ name, target.naming.baseType c = some name ∧
      name = target.naming.roleName (.ofClass b) .dataType ∧
        (b.kind ≠ .container → model.Calls target.naming (.ofClass b) .dataType name)
  /-- The name of a class resolves to its data type. -/
  classes : ∀ c ∈ model.classes, target.NotPrimitive c.name →
    ∃ name, target.resolve c.name = .user name ∧
      name = target.naming.roleName (.ofClass c) .dataType ∧
        (c.kind ≠ .container → model.Calls target.naming (.ofClass c) .dataType name)
  /-- The name of an enumeration resolves to its data type. -/
  enums : ∀ e ∈ model.enums, target.NotPrimitive e.name →
    ∃ name, target.resolve e.name = .user name ∧
      model.Calls target.naming (.ofEnum e) .dataType name

section Calls

variable {naming : Naming} {model : Model} {element : Element} {role : Role}

theorem Naming.calls_of_accepts (h : element.accepts role = true) :
    naming.Calls element role (naming.roleName element role) :=
  ⟨⟨element, role, h⟩, Descriptor.new_eq_ok_iff.mpr ⟨rfl, rfl⟩, rfl⟩

theorem Model.calls_of_mem_bindings (h : (element, role) ∈ model.bindings) :
    model.Calls naming element role (naming.roleName element role) :=
  ⟨h, naming.calls_of_accepts (accepts_of_mem_bindings h)⟩

/-- The builder called after an entity class is its request builder. -/
theorem Model.calls_builderName {k : ClassDecl} (hk : k ∈ model.classes)
    (hkind : k.kind = .entity) {type : String} (hname : k.name = type) (f : Facet) :
    model.Calls naming (.ofClass k) (.requestBuilder f)
      (naming.builderName f (naming.toType type)) := by
  rw [← hname, Naming.builderName_class]
  exact calls_of_mem_bindings
    (mem_bindings_ofClass.mpr ⟨hk, ClassDecl.requestBuilder_mem_roles.mpr hkind⟩)

/-- A class with a data type calls it by its type name. -/
theorem Model.calls_dataType {c : ClassDecl} (hc : c ∈ model.classes)
    (hkind : c.kind ≠ .container) :
    model.Calls naming (.ofClass c) .dataType (naming.typeName c.name) := by
  rw [Naming.typeName_class]
  exact calls_of_mem_bindings
    (mem_bindings_ofClass.mpr ⟨hc, ClassDecl.dataType_mem_roles.mpr hkind⟩)

end Calls

theorem Target.primitive?_eq_none_of_notPrimitive {target : Target} {type : String}
    (h : target.NotPrimitive type) : target.primitive? type = none := by
  rw [primitive?, Option.map_eq_none_iff, List.find?_eq_none]
  intro row hrow
  rw [h row hrow]
  exact Bool.false_ne_true

/-- Every model spells its references as the declarations that they lead to are called, under all
naming conventions. -/
theorem Model.spellsReferences (model : Model) (target : Target) :
    model.SpellsReferences target where
  collections := by
    intro c hc p hp hcollection f
    obtain ⟨hproperty, hnavigation⟩ := ClassDecl.mem_navigations_iff.mp hp
    have hrole : Role.collectionRequestBuilder f ∈ Role.ofCollection := by
      cases f <;> decide
    rw [Naming.linkedBuilder_of_collection f hcollection]
    refine ⟨Naming.calls_of_accepts ?_, fun hkind => ?_⟩
    · simp [Element.accepts, Role.isCollection, hrole, hcollection, hnavigation]
    · have hbound : p ∈ c.boundCollections :=
        ClassDecl.mem_boundCollections_iff.mpr ⟨hkind, hproperty, hnavigation, hcollection⟩
      exact mem_bindings_ofProperty.mpr ⟨hc, hbound, hrole⟩
  containers := by
    intro c _ hkind p _ hsingle k hk hentity hname f
    rw [Naming.linkedBuilder_of_container f hsingle hkind]
    exact calls_builderName hk hentity hname f
  items := by
    intro c _ p _ _ k hk hentity hname f
    exact calls_builderName hk hentity hname f
  bases := by
    intro c _ b hb hbase
    refine ⟨target.naming.typeName b.name, ?_, Naming.typeName_class b, calls_dataType hb⟩
    rw [Naming.baseType, hbase, Option.map_some]
  classes := by
    intro c hc hprimitive
    have hresolve :=
      Target.resolve_of_not_primitive (Target.primitive?_eq_none_of_notPrimitive hprimitive)
    exact ⟨_, hresolve, Naming.typeName_class c, calls_dataType hc⟩
  enums := by
    intro e he hprimitive
    have hresolve :=
      Target.resolve_of_not_primitive (Target.primitive?_eq_none_of_notPrimitive hprimitive)
    refine ⟨_, hresolve, ?_⟩
    rw [Naming.typeName_enum]
    exact calls_of_mem_bindings (mem_bindings_ofEnum.mpr ⟨he, rfl⟩)

end SdkHeaders
