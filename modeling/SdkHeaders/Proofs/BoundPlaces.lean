import Mathlib.Data.List.Lex
import SdkHeaders.Proofs.Generation

/-!
# Places of descriptors

Where the elements of a model stand and which of them are bound to which roles.  Two declarations
of a model may be alike, so that descriptors are told apart by the places of their elements.

Main results:

- Type `Place` is the place of an element in a model, and definition `Model.elements` lists the
  elements with their places.
- Theorem `Model.bindings_eq`: the bindings of a model are its elements with the roles that they
  accept, but for the properties of complex classes.
- Theorem `Model.pairwise_placings`: the bound places follow each other in the order of the model.
- Theorem `Model.bind_spec` says which descriptors a model has, in which order, and that none is
  repeated.
-/

namespace SdkHeaders

/-! ## Places -/

/-- The place of an element in a model. -/
inductive Place where
  /-- The place of an enumeration. -/
  | ofEnum (index : Nat)
  /-- The place of a class. -/
  | ofClass (index : Nat)
  /-- The place of a property in the class at an index. -/
  | ofProperty (index position : Nat)
  deriving DecidableEq, Repr

namespace Place

/-- The way to a place.  Enumerations stand in front of classes, and a class in front of its
properties. -/
def path : Place → List Nat
  | ofEnum i => [0, i]
  | ofClass i => [1, i]
  | ofProperty i j => [1, i, j]

/-- A role at a place comes before another: the place does, or it is the same place and the role
does. -/
def Before (a b : Place × Role) : Prop :=
  a.1.path < b.1.path ∨ a.1 = b.1 ∧ a.2.rank < b.2.rank

/-- Nothing comes before itself. -/
theorem Before.ne {a b : Place × Role} (h : Before a b) : a ≠ b := by
  rintro rfl
  rcases h with h | ⟨-, h⟩
  · exact List.lt_irrefl _ h
  · exact Nat.lt_irrefl _ h

end Place

/-! ## Roles of an element -/

/-- Whether the element is a property of a complex class. -/
def Element.isEmbedded : Element → Bool
  | ofEnum _ => false
  | ofClass _ => false
  | ofProperty owner _ => owner.kind = .complex

/-- The roles that an element is bound to. -/
def Element.boundRoles (element : Element) : List Role :=
  if element.isEmbedded then [] else Role.all.filter element.accepts

theorem Element.mem_boundRoles_iff {element : Element} {role : Role} :
    role ∈ element.boundRoles ↔ element.accepts role = true ∧ element.isEmbedded = false := by
  unfold boundRoles
  cases element.isEmbedded <;> simp [Role.mem_all]

/-- A descriptor can be made exactly of an element with a role that it accepts. -/
theorem Descriptor.exists_new_iff {element : Element} {role : Role} :
    (∃ d, Descriptor.new element role = .ok d) ↔ element.accepts role = true := by
  simp only [new_eq_ok_iff]
  constructor
  · rintro ⟨d, rfl, rfl⟩
    exact d.accepted
  · intro h
    exact ⟨⟨element, role, h⟩, rfl, rfl⟩

/-- The roles that an element is bound to are in order. -/
theorem Element.pairwise_boundRoles (element : Element) :
    element.boundRoles.Pairwise fun a b => a.rank < b.rank := by
  have hall : Role.all.Pairwise fun a b => a.rank < b.rank := by decide
  unfold boundRoles
  split
  · exact List.Pairwise.nil
  · exact hall.filter _

/-- An enumeration is bound to its data type. -/
theorem Element.boundRoles_ofEnum (e : EnumDecl) : (ofEnum e).boundRoles = [.dataType] := rfl

/-- A class is bound to the roles of its kind. -/
theorem Element.boundRoles_ofClass (c : ClassDecl) : (ofClass c).boundRoles = c.roles := by
  obtain ⟨name, kind, base, properties⟩ := c
  cases kind <;> rfl

/-- A collection-valued navigation property of a class that is not complex is bound to the roles of
collections, and any other property to none. -/
theorem Element.boundRoles_ofProperty (c : ClassDecl) (p : Property) :
    (ofProperty c p).boundRoles =
      if c.kind ≠ .complex ∧ p.navigation = true ∧ p.collection = true then Role.ofCollection
      else [] := by
  obtain ⟨className, kind, base, properties⟩ := c
  obtain ⟨name, type, collection, navigation, description, owner⟩ := p
  cases kind <;> cases navigation <;> cases collection <;> rfl

/-! ## Indices -/

/-- The indices of a list are in order. -/
theorem pairwise_zipIdx {α : Type} (l : List α) :
    l.zipIdx.Pairwise fun a b => a.2 < b.2 := by
  have hindices : (l.zipIdx.map Prod.snd).Pairwise (· < ·) := by
    rw [List.zipIdx_map_snd]
    exact List.pairwise_lt_range' 1
  exact List.pairwise_map.mp hindices

/-- Indices do not matter to what is made of the members of a list alone. -/
theorem flatMap_eq_zipIdx {α β : Type} (l : List α) (f : α → List β) :
    l.flatMap f = l.zipIdx.flatMap fun entry => f entry.1 := by
  conv_lhs => rw [← List.zipIdx_map_fst 0 l, List.flatMap_map]

/-! ## Elements of a model -/

namespace ClassDecl

/-- The class at an index of a model, and its properties, with their places. -/
def elements (c : ClassDecl) (index : Nat) : List (Place × Element) :=
  (.ofClass index, .ofClass c) ::
    c.properties.zipIdx.map fun entry => (.ofProperty index entry.2, .ofProperty c entry.1)

/-- Passing over the properties that have no roles does not change the bindings. -/
theorem flatMap_boundCollections (c : ClassDecl) :
    (c.boundCollections.flatMap fun p =>
        Role.ofCollection.map fun role => (Element.ofProperty c p, role)) =
      c.properties.flatMap fun p =>
        (Element.ofProperty c p).boundRoles.map (Element.ofProperty c p, ·) := by
  unfold boundCollections collectionNavigations navigations
  simp only [Element.boundRoles_ofProperty]
  by_cases hkind : c.kind = .complex
  · simp [hkind]
  · simp only [hkind, ne_eq, not_false_eq_true, true_and, if_false, List.filter_filter]
    induction c.properties with
    | nil => rfl
    | cons p rest ih =>
        cases hnavigation : p.navigation <;> cases hcollection : p.collection <;>
          simp [hnavigation, hcollection, ih]

/-- The bindings of a class are the roles that it and its properties are bound to. -/
theorem bindings_eq (c : ClassDecl) (index : Nat) :
    c.bindings = (c.elements index).flatMap fun entry => entry.2.boundRoles.map (entry.2, ·) := by
  rw [bindings, flatMap_boundCollections, flatMap_eq_zipIdx, elements, List.flatMap_cons,
    List.flatMap_map, Element.boundRoles_ofClass]

end ClassDecl

namespace Model

/-- The elements of a model with their places, in order. -/
def elements (model : Model) : List (Place × Element) :=
  model.enums.zipIdx.map (fun entry => (.ofEnum entry.2, .ofEnum entry.1)) ++
    model.classes.zipIdx.flatMap fun entry => entry.1.elements entry.2

/-- The element at a place. -/
def at? (model : Model) : Place → Option Element
  | .ofEnum i => model.enums[i]?.map .ofEnum
  | .ofClass i => model.classes[i]?.map .ofClass
  | .ofProperty i j => model.classes[i]?.bind fun c => c.properties[j]?.map (.ofProperty c)

/-- A model has an element at a place exactly if it is listed there. -/
theorem mem_elements_iff {model : Model} {place : Place} {element : Element} :
    (place, element) ∈ model.elements ↔ model.at? place = some element := by
  simp only [elements, ClassDecl.elements, List.mem_append, List.mem_map, List.mem_flatMap,
    List.mem_cons, Prod.exists, Prod.mk.injEq, List.mk_mem_zipIdx_iff_getElem?]
  cases place with
  | ofEnum i => simp [at?]
  | ofClass i =>
      simp only [at?, reduceCtorEq, false_and, and_false, exists_false, false_or, or_false,
        Place.ofClass.injEq, Option.map_eq_some_iff]
      constructor
      · rintro ⟨c, _, hc, rfl, rfl⟩
        exact ⟨c, hc, rfl⟩
      · rintro ⟨c, hc, rfl⟩
        exact ⟨c, i, hc, rfl, rfl⟩
  | ofProperty i j =>
      simp only [at?, reduceCtorEq, false_and, and_false, exists_false, false_or,
        Place.ofProperty.injEq, Option.bind_eq_some_iff, Option.map_eq_some_iff]
      constructor
      · rintro ⟨c, _, hc, p, _, hp, ⟨rfl, rfl⟩, rfl⟩
        exact ⟨c, hc, p, hp, rfl⟩
      · rintro ⟨c, hc, p, hp, rfl⟩
        exact ⟨c, i, hc, p, j, hp, ⟨rfl, rfl⟩, rfl⟩

/-- The bindings of a model are the roles that its elements are bound to. -/
theorem bindings_eq (model : Model) :
    model.bindings = model.elements.flatMap fun entry => entry.2.boundRoles.map (entry.2, ·) := by
  have henums : model.enums.map (fun e => (Element.ofEnum e, Role.dataType)) =
      model.enums.flatMap fun e => (Element.ofEnum e).boundRoles.map (Element.ofEnum e, ·) := by
    simp only [Element.boundRoles_ofEnum, List.map_singleton]
    exact List.map_eq_flatMap
  have hclasses : model.classes.flatMap (·.bindings) =
      model.classes.zipIdx.flatMap fun entry =>
        (entry.1.elements entry.2).flatMap fun inner => inner.2.boundRoles.map (inner.2, ·) := by
    rw [flatMap_eq_zipIdx]
    exact List.flatMap_congr fun entry _ => entry.1.bindings_eq entry.2
  rw [bindings, henums, hclasses, flatMap_eq_zipIdx, elements, List.flatMap_append,
    List.flatMap_map, List.flatMap_assoc]

end Model

/-! ## The order of places -/

/-- The elements of a class are in the order of their places. -/
theorem ClassDecl.pairwise_elements (c : ClassDecl) (index : Nat) :
    (c.elements index).Pairwise fun a b => a.1.path < b.1.path := by
  refine List.pairwise_cons.mpr ⟨?_, ?_⟩
  · intro entry hentry
    obtain ⟨inner, -, rfl⟩ := List.mem_map.mp hentry
    simp [Place.path]
  · refine List.pairwise_map.mpr ((pairwise_zipIdx c.properties).imp fun hlt => ?_)
    simp [Place.path, List.cons_lt_cons_iff, hlt]

/-- The places of a class and of its properties begin alike. -/
theorem ClassDecl.path_of_mem_elements {c : ClassDecl} {index : Nat} {entry : Place × Element}
    (h : entry ∈ c.elements index) : ∃ rest, entry.1.path = 1 :: index :: rest := by
  rcases List.mem_cons.mp h with rfl | h
  · exact ⟨[], rfl⟩
  · obtain ⟨inner, -, rfl⟩ := List.mem_map.mp h
    exact ⟨[inner.2], rfl⟩

namespace Model

/-- The elements of a model are in the order of their places. -/
theorem pairwise_elements (model : Model) :
    model.elements.Pairwise fun a b => a.1.path < b.1.path := by
  refine List.pairwise_append.mpr ⟨?_, ?_, ?_⟩
  · refine List.pairwise_map.mpr ((pairwise_zipIdx model.enums).imp fun hlt => ?_)
    simp [Place.path, List.cons_lt_cons_iff, hlt]
  · refine List.pairwise_flatMap.mpr ⟨fun entry _ => entry.1.pairwise_elements entry.2, ?_⟩
    refine (pairwise_zipIdx model.classes).imp fun hlt first hfirst second hsecond => ?_
    obtain ⟨l, hl⟩ := ClassDecl.path_of_mem_elements hfirst
    obtain ⟨r, hr⟩ := ClassDecl.path_of_mem_elements hsecond
    rw [hl, hr]
    simp [List.cons_lt_cons_iff, hlt]
  · intro first hfirst second hsecond
    obtain ⟨e, -, rfl⟩ := List.mem_map.mp hfirst
    obtain ⟨c, -, hc⟩ := List.mem_flatMap.mp hsecond
    obtain ⟨r, hr⟩ := ClassDecl.path_of_mem_elements hc
    rw [hr]
    simp [Place.path, List.cons_lt_cons_iff]

/-- The places of a model with the roles that the elements there are bound to. -/
def placings (model : Model) : List (Place × Role) :=
  model.elements.flatMap fun entry => entry.2.boundRoles.map (entry.1, ·)

/-- A role is placed exactly where an element is bound to it. -/
theorem mem_placings_iff {model : Model} {place : Place} {role : Role} :
    (place, role) ∈ model.placings ↔
      ∃ element, model.at? place = some element ∧ role ∈ element.boundRoles := by
  simp only [placings, List.mem_flatMap, List.mem_map, Prod.exists, Prod.mk.injEq,
    mem_elements_iff]
  constructor
  · rintro ⟨_, element, hat, _, hrole, rfl, rfl⟩
    exact ⟨element, hat, hrole⟩
  · rintro ⟨element, hat, hrole⟩
    exact ⟨place, element, hat, role, hrole, rfl, rfl⟩

/-- The placings of a model are in order, and so none is repeated. -/
theorem pairwise_placings (model : Model) : model.placings.Pairwise Place.Before := by
  refine List.pairwise_flatMap.mpr ⟨?_, ?_⟩
  · intro entry _
    refine List.pairwise_map.mpr (entry.2.pairwise_boundRoles.imp fun hlt => ?_)
    exact .inr ⟨rfl, hlt⟩
  · refine model.pairwise_elements.imp fun hlt first hfirst second hsecond => ?_
    obtain ⟨_, -, rfl⟩ := List.mem_map.mp hfirst
    obtain ⟨_, -, rfl⟩ := List.mem_map.mp hsecond
    exact .inl hlt

/-- The bindings of a model are the elements at its placings. -/
theorem forall₂_placings (model : Model) :
    List.Forall₂ (fun placing binding =>
      model.at? placing.1 = some binding.1 ∧ placing.2 = binding.2)
      model.placings model.bindings := by
  -- both lists come of the same elements, and so the roles of one element match in length
  have hparts : ∀ l : List (Place × Element), (∀ entry ∈ l, entry ∈ model.elements) →
      List.Forall₂ (fun placing binding =>
        model.at? placing.1 = some binding.1 ∧ placing.2 = binding.2)
        (l.flatMap fun entry => entry.2.boundRoles.map (entry.1, ·))
        (l.flatMap fun entry => entry.2.boundRoles.map (entry.2, ·)) := by
    intro l hl
    induction l with
    | nil => exact .nil
    | cons entry rest ih =>
        rw [List.flatMap_cons, List.flatMap_cons]
        refine List.rel_append ?_ (ih fun other hother => hl other (List.mem_cons_of_mem _ hother))
        rw [List.forall₂_map_left_iff, List.forall₂_map_right_iff, List.forall₂_same]
        exact fun role _ => ⟨mem_elements_iff.mp (hl entry List.mem_cons_self), rfl⟩
  rw [placings, bindings_eq]
  exact hparts _ fun entry hentry => hentry

/-- The bindings of enumerations come first, and then those of one class after the other: the roles
that the class accepts, followed by those of its collections unless it is complex. -/
theorem bindings_eq_append (model : Model) :
    model.bindings =
      model.enums.map (fun e => (.ofEnum e, .dataType)) ++
        model.classes.flatMap fun c =>
          (Role.all.filter (Element.ofClass c).accepts).map (.ofClass c, ·) ++
            if c.kind = .complex then []
            else c.collectionNavigations.flatMap fun p =>
              Role.ofCollection.map (.ofProperty c p, ·) := by
  have hclass : ∀ c : ClassDecl, c.bindings =
      (Role.all.filter (Element.ofClass c).accepts).map (.ofClass c, ·) ++
        if c.kind = .complex then []
        else c.collectionNavigations.flatMap fun p =>
          Role.ofCollection.map (.ofProperty c p, ·) := by
    intro c
    have hroles : Role.all.filter (Element.ofClass c).accepts = c.roles :=
      Element.boundRoles_ofClass c
    rw [ClassDecl.bindings, ClassDecl.boundCollections, hroles]
    split <;> rfl
  rw [bindings]
  simp only [hclass]

/-- Every model has descriptors.  They are those of its enumerations, in order, and then those of
one class after the other: first the roles that the class accepts, and then, unless the class is
complex, the roles of collections for one collection-valued navigation property after the other.
Each descriptor stands for a role at a place of the model, and no two stand for the same: a role
has a descriptor at a place exactly if a descriptor can be made of it and the element there, which
must not be a property of a complex class. -/
theorem bind_spec (model : Model) :
    ∃ ds placings, model.bind = .ok ds ∧
      ds.map (fun d => (d.element, d.role)) =
        model.enums.map (fun e => (.ofEnum e, .dataType)) ++
          model.classes.flatMap (fun c =>
            (Role.all.filter (Element.ofClass c).accepts).map (.ofClass c, ·) ++
              if c.kind = .complex then []
              else c.collectionNavigations.flatMap fun p =>
                Role.ofCollection.map (.ofProperty c p, ·)) ∧
      List.Forall₂ (fun placing d => model.at? placing.1 = some d.element ∧ placing.2 = d.role)
        placings ds ∧
      placings.Pairwise Place.Before ∧ placings.Nodup ∧
      ∀ place role, (place, role) ∈ placings ↔
        ∃ element, model.at? place = some element ∧
          (∃ d, Descriptor.new element role = .ok d) ∧ element.isEmbedded = false := by
  obtain ⟨ds, hds⟩ := model.exists_bind
  have hpairs := bind_eq_ok_iff.mp hds
  refine ⟨ds, model.placings, hds, hpairs.trans model.bindings_eq_append, ?_,
    model.pairwise_placings, model.pairwise_placings.imp Place.Before.ne, ?_⟩
  · have hplacings := model.forall₂_placings
    rwa [← hpairs, List.forall₂_map_right_iff] at hplacings
  · intro place role
    simp only [mem_placings_iff, Element.mem_boundRoles_iff, Descriptor.exists_new_iff]

end Model

end SdkHeaders
