import Mathlib.Data.List.Perm.Basic
import SdkHeaders.Proofs.Generation
import SdkHeaders.Proofs.UniqueNames

/-!
# Locality of headers

What a header depends on besides its own element: the namespace of the model and, for the client,
the address of the service.  Two models that have an element in common write the same header for
it, whatever else they declare and in whatever order.

Main results:

- Relation `Element.Alike` says that elements cannot be told apart by their headers, and theorem
  `Rendered.eq_of_alike` that they have the same header.
- Relation `Model.Emits` says that a model has a file for an element in a role.
- Structure `LocalHeaders` lists what follows for two models with the same element, for models in
  another order, and for models to which a declaration is added.
- Theorem `Target.localHeaders`: the headers are local in this sense.
-/

namespace SdkHeaders

open Header

/-! ## Headers of one element -/

/-- Two elements are the same, or they are the same property of owners of the same name. -/
inductive Element.Alike : Element → Element → Prop
  | refl (element : Element) : Alike element element
  | property {c c' : ClassDecl} (p : Property) (h : c.name = c'.name) :
      Alike (.ofProperty c p) (.ofProperty c' p)

/-- The declarations of elements that are alike have the same names. -/
theorem Element.Alike.roleName_eq {element element' : Element} (h : element.Alike element')
    (naming : Naming) (role : Role) :
    naming.roleName element role = naming.roleName element' role := by
  cases h with
  | refl => rfl
  | property p h =>
      simp only [Naming.roleName, Naming.baseName, Naming.collectionName, h]

section Alike

variable {target : Target} {url url' : String} {element element' : Element} {role : Role}

/-- The contracts of elements that are alike make the same facet, unless it is a client and the
addresses differ. -/
theorem HasContract.entity_eq_of_alike {contract contract' : Contract} (h : element.Alike element')
    (hcontract : HasContract ⟨target, url⟩ element role contract)
    (hcontract' : HasContract ⟨target, url'⟩ element' role contract')
    (hurl : role = .client .implementation → url = url') (name interface : String) :
    contract.entity role name interface = contract'.entity role name interface := by
  cases h with
  | refl =>
      cases hcontract <;> cases hcontract'
      case client.client c f =>
        cases f with
        | interface => rfl
        | implementation => rw [hurl rfl]
      all_goals rfl
  | @property c c' p hname =>
      have hroleName := (Element.Alike.property p hname).roleName_eq target.naming
      cases hcontract <;> cases hcontract'
      case collectionPage.collectionPage =>
        rw [show pageContract target c p = pageContract target c' p by
          simp only [pageContract, collectionSummary, hname]]
      case collectionRequest.collectionRequest =>
        rw [show collectionRequestContract target c p = collectionRequestContract target c' p by
          simp only [collectionRequestContract, collectionSummary, hname, hroleName]]
      case collectionRequestBuilder.collectionRequestBuilder =>
        rw [show collectionRequestBuilderContract target c p =
            collectionRequestBuilderContract target c' p by
          simp only [collectionRequestBuilderContract, collectionSummary, hname, hroleName]]

/-- Elements that are alike have the same header in a role, unless it is that of a client and the
addresses differ. -/
theorem Rendered.eq_of_alike {names names' : List TypeName} {e e' : Entity}
    (h : element.Alike element') (hrendered : Rendered ⟨target, url⟩ element role names e)
    (hrendered' : Rendered ⟨target, url'⟩ element' role names' e')
    (hurl : role = .client .implementation → url = url') : e = e' := by
  cases hrendered with
  | facet hcontract =>
      cases hrendered' with
      | facet hcontract' =>
          simp only [h.roleName_eq]
          exact hcontract.entity_eq_of_alike h hcontract' hurl _ _
      | _ => cases h <;> cases hcontract
  | enumData =>
      cases h
      cases hrendered' with
      | facet hcontract' => cases hcontract'
      | enumData => rfl
  | classData =>
      cases h
      cases hrendered' with
      | facet hcontract' => cases hcontract'
      | classData => rfl
  | response c p =>
      have hsame : ∀ c', c.name = c'.name →
          responseEntity target c p = responseEntity target c' p := by
        intro c' hname
        simp only [responseEntity, collectionSummary, hname,
          (Element.Alike.property p hname).roleName_eq]
      cases h with
      | refl =>
          cases hrendered' with
          | facet hcontract' => cases hcontract'
          | response => rfl
      | property _ hname =>
          cases hrendered' with
          | facet hcontract' => cases hcontract'
          | response => exact hsame _ hname

end Alike

/-! ## Files of a model -/

namespace Model

/-- Among the files of a model is the header of an element in a role. -/
def Emits (setting : Setting) (model : Model) (element : Element) (role : Role)
    (file : String × String) : Prop :=
  ∃ fs e, model.files setting = .ok fs ∧ file ∈ fs ∧ model.Renders setting element role e ∧
    file = (setting.target.headerFile e.name, e.fileText setting.target model.headerSpace)

section Emits

variable {target : Target} {url url' : String} {model model' : Model} {element element' : Element}
  {role : Role}

/-- A model with descriptors has a file for each of its bindings. -/
theorem exists_emits {setting : Setting} {ds : List Descriptor}
    (hds : model.descriptors setting = .ok ds) (h : (element, role) ∈ model.bindings) :
    ∃ file, model.Emits setting element role file := by
  obtain ⟨es, hes⟩ := exists_entities hds
  obtain ⟨e, names, hrenders, -⟩ := exists_renders setting h
  have he : e ∈ es := (mem_entities_iff hes).mpr ⟨element, role, hrenders⟩
  exact ⟨_, _, e, files_eq_ok_iff.mpr ⟨es, hes, rfl⟩, List.mem_map_of_mem he, hrenders, rfl⟩

/-- The files of elements that are alike have the same path and, unless they are clients at
different addresses, the same text. -/
theorem Emits.eq_of_alike {file file' : String × String} (hspace : model.space = model'.space)
    (halike : element.Alike element') (h : model.Emits ⟨target, url⟩ element role file)
    (h' : model'.Emits ⟨target, url'⟩ element' role file') :
    file.1 = file'.1 ∧ ((role = .client .implementation → url = url') → file.2 = file'.2) := by
  obtain ⟨fs, e, -, -, hrenders, rfl⟩ := h
  obtain ⟨fs', e', -, -, hrenders', rfl⟩ := h'
  obtain ⟨names, hrendered⟩ := hrenders.exists_rendered
  obtain ⟨names', hrendered'⟩ := hrenders'.exists_rendered
  have hname : e.name = e'.name := by
    rw [hrendered.spec.1, hrendered'.spec.1]
    exact halike.roleName_eq target.naming role
  refine ⟨congrArg target.headerFile hname, fun hurl => ?_⟩
  rw [hrendered.eq_of_alike halike hrendered' hurl, headerSpace, headerSpace, hspace]

/-- A file of a binding stays the same in every model of the same namespace that has the binding
too. -/
theorem Emits.of_mem_bindings {setting : Setting} {file : String × String} {ds : List Descriptor}
    (h : model.Emits setting element role file) (hspace : model.space = model'.space)
    (hds : model'.descriptors setting = .ok ds) (hmem : (element, role) ∈ model'.bindings) :
    model'.Emits setting element role file := by
  obtain ⟨file', h'⟩ := exists_emits hds hmem
  obtain ⟨hpath, htext⟩ := h.eq_of_alike hspace (.refl element) h'
  rwa [Prod.ext hpath (htext fun _ => rfl)]

end Emits

/-! ## Declarations in another order -/

section Order

variable {setting : Setting} {model model' : Model}

/-- Descriptors with the same elements and roles are the same, up to their order. -/
theorem perm_of_map_perm {ds ds' : List Descriptor}
    (h : (ds.map fun d => (d.element, d.role)).Perm (ds'.map fun d => (d.element, d.role))) :
    ds.Perm ds' := by
  have hinjective : Function.Injective fun d : Descriptor => (d.element, d.role) := by
    rintro ⟨element, role, _⟩ ⟨element', role', _⟩ hd
    obtain ⟨rfl, rfl⟩ := Prod.mk.inj hd
    rfl
  exact (List.map_perm_map_iff hinjective).mp h

/-- Whether names are free does not depend on the order of the descriptors. -/
theorem namesFree_of_perm {naming : Naming} {framework : List String} {ds ds' : List Descriptor}
    (hperm : ds.Perm ds') (h : NamesFree naming framework ds) : NamesFree naming framework ds' :=
  ⟨(hperm.map naming.descriptorName).nodup_iff.mp h.1, fun d hd => h.2 d (hperm.mem_iff.mpr hd)⟩

section Perm

variable (henums : model.enums.Perm model'.enums) (hclasses : model.classes.Perm model'.classes)

include henums hclasses

/-- The bindings of a model follow the order of its declarations. -/
theorem bindings_perm : model.bindings.Perm model'.bindings :=
  (henums.map _).append (hclasses.flatMap_right _)

/-- A model that has descriptors has the same ones if its declarations are put in another order. -/
theorem exists_descriptors_of_perm {ds : List Descriptor}
    (hds : model.descriptors setting = .ok ds) :
    ∃ ds', model'.descriptors setting = .ok ds' ∧ ds.Perm ds' := by
  obtain ⟨hbind, hunique⟩ := descriptors_eq_ok_iff.mp hds
  obtain ⟨ds', hbind'⟩ := model'.exists_bind
  have hperm : ds.Perm ds' := by
    apply perm_of_map_perm
    rw [bind_eq_ok_iff.mp hbind, bind_eq_ok_iff.mp hbind']
    exact bindings_perm henums hclasses
  have hfree := namesFree_of_perm hperm ((checkUnique_eq_ok_iff ds).mp hunique)
  exact ⟨ds', descriptors_eq_ok_iff.mpr ⟨hbind', (checkUnique_eq_ok_iff ds').mpr hfree⟩, hperm⟩

/-- A model that has files has the same ones if its declarations are put in another order. -/
theorem exists_files_of_perm (hspace : model.space = model'.space) {fs : List (String × String)}
    (hfs : model.files setting = .ok fs) :
    ∃ fs', model'.files setting = .ok fs' ∧ fs.Perm fs' := by
  obtain ⟨es, hes, rfl⟩ := files_eq_ok_iff.mp hfs
  obtain ⟨ds, hds, hrender⟩ := entities_eq_ok_iff.mp hes
  obtain ⟨ds', hds', hperm⟩ := exists_descriptors_of_perm henums hclasses hds
  obtain ⟨es', hrender', hperm'⟩ := List.perm_comp_forall₂ hperm.symm hrender
  have hes' := entities_eq_ok_iff.mpr ⟨ds', hds', hrender'⟩
  refine ⟨_, files_eq_ok_iff.mpr ⟨es', hes', rfl⟩, ?_⟩
  rw [headerSpace, headerSpace, hspace]
  exact hperm'.symm.map _

end Perm

end Order

end Model

/-! ## Further declarations -/

/-- An insertion keeps every value but the one that it replaces. -/
theorem OrderedMap.mem_values_insert {α : Type} {map : OrderedMap α} {key : String} {value v : α}
    (h : v ∈ map.values) (hother : map.get? key ≠ some v) : v ∈ (map.insert key value).values := by
  obtain ⟨entries⟩ := map
  simp only [insert, get?, values] at h hother ⊢
  induction entries with
  | nil => cases h
  | cons entry rest ih =>
      obtain ⟨k, u⟩ := entry
      unfold insertEntry
      by_cases hkey : k = key
      · rw [if_pos hkey]
        -- The value that is replaced is the first one under its key.
        have hfirst : u ≠ v := by
          rintro rfl
          simp [hkey] at hother
        exact List.mem_cons_of_mem _ ((List.mem_cons.mp h).resolve_left hfirst.symm)
      · rw [if_neg hkey]
        have hrest : rest.lookup key ≠ some v := by
          have hb : (key == k) = false := beq_false_of_ne (Ne.symm hkey)
          simpa [List.lookup_cons, hb] using hother
        rcases List.mem_cons.mp h with hv | hv
        · exact List.mem_cons.mpr (.inl hv)
        · exact List.mem_cons_of_mem _ (ih hv hrest)

namespace Model

variable {model : Model} {element : Element} {role : Role}

/-- A further enumeration keeps every binding but that of the enumeration that it replaces. -/
theorem mem_bindings_addEnum {e : EnumDecl} (h : (element, role) ∈ model.bindings)
    (hother : ∀ old, model.enum? e.name = some old → element ≠ .ofEnum old) :
    (element, role) ∈ (model.addEnum e).bindings := by
  cases element with
  | ofEnum d =>
      obtain ⟨hd, hrole⟩ := mem_bindings_ofEnum.mp h
      have hkept : model.enum? e.name ≠ some d := fun hold => hother d hold rfl
      exact mem_bindings_ofEnum.mpr ⟨OrderedMap.mem_values_insert hd hkept, hrole⟩
  | ofClass c =>
      obtain ⟨hc, hrole⟩ := mem_bindings_ofClass.mp h
      exact mem_bindings_ofClass.mpr ⟨hc, hrole⟩
  | ofProperty c p =>
      obtain ⟨hc, hp, hrole⟩ := mem_bindings_ofProperty.mp h
      exact mem_bindings_ofProperty.mpr ⟨hc, hp, hrole⟩

/-- A further class keeps every binding but those of the class that it replaces. -/
theorem mem_bindings_addClass {k : ClassDecl} (h : (element, role) ∈ model.bindings)
    (hother : ∀ old, model.class? k.name = some old →
      element ≠ .ofClass old ∧ ∀ p, element ≠ .ofProperty old p) :
    (element, role) ∈ (model.addClass k).bindings := by
  cases element with
  | ofEnum d =>
      obtain ⟨hd, hrole⟩ := mem_bindings_ofEnum.mp h
      exact mem_bindings_ofEnum.mpr ⟨hd, hrole⟩
  | ofClass c =>
      obtain ⟨hc, hrole⟩ := mem_bindings_ofClass.mp h
      have hkept : model.class? k.name ≠ some c := fun hold => (hother c hold).1 rfl
      exact mem_bindings_ofClass.mpr ⟨OrderedMap.mem_values_insert hc hkept, hrole⟩
  | ofProperty c p =>
      obtain ⟨hc, hp, hrole⟩ := mem_bindings_ofProperty.mp h
      have hkept : model.class? k.name ≠ some c := fun hold => (hother c hold).2 p rfl
      exact mem_bindings_ofProperty.mpr ⟨OrderedMap.mem_values_insert hc hkept, hp, hrole⟩

end Model

/-! ## Local headers -/

/-- The headers of models depend on their elements, the namespace and, for a client, the address. -/
structure LocalHeaders (target : Target) : Prop where
  /-- A model with descriptors has a file for each of its bindings. -/
  emits : ∀ (url : String) (model : Model) (ds : List Descriptor),
    model.descriptors ⟨target, url⟩ = .ok ds →
      ∀ element role, (element, role) ∈ model.bindings →
        ∃ file, model.Emits ⟨target, url⟩ element role file
  /-- Two models of the same namespace that bind elements that are alike to a role have files with
  the same path for them and, unless they are clients at different addresses, with the same text. -/
  alike : ∀ (url url' : String) (model model' : Model), model.space = model'.space →
    ∀ (element element' : Element) (role : Role), element.Alike element' →
      ∀ file file' : String × String, model.Emits ⟨target, url⟩ element role file →
        model'.Emits ⟨target, url'⟩ element' role file' →
          file.1 = file'.1 ∧
            ((role = .client .implementation → url = url') → file.2 = file'.2)
  /-- A model with the same declarations in another order has files exactly if the model has, and
  they are the same. -/
  reordered : ∀ (url : String) (model model' : Model), model.space = model'.space →
    model.enums.Perm model'.enums → model.classes.Perm model'.classes →
      ((∃ fs, model.files ⟨target, url⟩ = .ok fs) ↔
        ∃ fs', model'.files ⟨target, url⟩ = .ok fs') ∧
      ∀ fs fs', model.files ⟨target, url⟩ = .ok fs → model'.files ⟨target, url⟩ = .ok fs' →
        fs.Perm fs'
  /-- A further enumeration with which a model has files leaves every file alone, unless it is that
  of an enumeration that it replaces. -/
  addEnum : ∀ (url : String) (model : Model) (e : EnumDecl) (fs : List (String × String)),
    (model.addEnum e).files ⟨target, url⟩ = .ok fs →
      ∀ element role file, model.Emits ⟨target, url⟩ element role file →
        (∀ old, model.enum? e.name = some old → element ≠ .ofEnum old) →
          (model.addEnum e).Emits ⟨target, url⟩ element role file
  /-- A further class with which a model has files leaves every file alone, unless it is one of a
  class that it replaces. -/
  addClass : ∀ (url : String) (model : Model) (k : ClassDecl) (fs : List (String × String)),
    (model.addClass k).files ⟨target, url⟩ = .ok fs →
      ∀ element role file, model.Emits ⟨target, url⟩ element role file →
        (∀ old, model.class? k.name = some old →
          element ≠ .ofClass old ∧ ∀ p, element ≠ .ofProperty old p) →
          (model.addClass k).Emits ⟨target, url⟩ element role file

/-- A model with files has descriptors. -/
theorem Model.exists_descriptors_of_files {model : Model} {setting : Setting}
    {fs : List (String × String)} (h : model.files setting = .ok fs) :
    ∃ ds, model.descriptors setting = .ok ds := by
  obtain ⟨es, hes, -⟩ := files_eq_ok_iff.mp h
  obtain ⟨ds, hds, -⟩ := entities_eq_ok_iff.mp hes
  exact ⟨ds, hds⟩

/-- The headers for every target are local. -/
theorem Target.localHeaders (target : Target) : LocalHeaders target where
  emits := fun _ _ _ hds _ _ hmem => Model.exists_emits hds hmem
  alike := fun _ _ _ _ hspace _ _ _ halike _ _ h h' => h.eq_of_alike hspace halike h'
  reordered := by
    intro url model model' hspace henums hclasses
    refine ⟨⟨?_, ?_⟩, ?_⟩
    · rintro ⟨fs, hfs⟩
      obtain ⟨fs', hfs', -⟩ := Model.exists_files_of_perm henums hclasses hspace hfs
      exact ⟨fs', hfs'⟩
    · rintro ⟨fs', hfs'⟩
      obtain ⟨fs, hfs, -⟩ := Model.exists_files_of_perm henums.symm hclasses.symm hspace.symm hfs'
      exact ⟨fs, hfs⟩
    · intro fs fs' hfs hfs'
      obtain ⟨other, hother, hperm⟩ := Model.exists_files_of_perm henums hclasses hspace hfs
      obtain rfl : other = fs' := Except.ok.inj (hother.symm.trans hfs')
      exact hperm
  addEnum := by
    intro url model e fs hfs element role file h hother
    obtain ⟨ds, hds⟩ := Model.exists_descriptors_of_files hfs
    obtain ⟨_, _, _, _, hrenders, _⟩ := id h
    exact h.of_mem_bindings rfl hds (Model.mem_bindings_addEnum hrenders.mem_bindings hother)
  addClass := by
    intro url model k fs hfs element role file h hother
    obtain ⟨ds, hds⟩ := Model.exists_descriptors_of_files hfs
    obtain ⟨_, _, _, _, hrenders, _⟩ := id h
    exact h.of_mem_bindings rfl hds (Model.mem_bindings_addClass hrenders.mem_bindings hother)

/-- A model of colors. -/
def colorModel : Model :=
  (Model.new "demo").addEnum (emptyEnum "color")

/-- The header of colors is the same in the model of colors and, at another address, in a model of
colors and shades. -/
theorem colorModel_localHeaders :
    LocalHeaders .standard ∧ ∃ file,
      colorModel.Emits (Model.standardSetting "https://first") (.ofEnum (emptyEnum "color"))
          .dataType file ∧
        (colorModel.addEnum (emptyEnum "shade")).Emits (Model.standardSetting "https://second")
          (.ofEnum (emptyEnum "color")) .dataType file := by
  have hlocal := Target.standard.localHeaders
  have hcolor : (.ofEnum (emptyEnum "color"), .dataType) ∈ colorModel.bindings :=
    List.mem_cons_self
  have hshade : (.ofEnum (emptyEnum "color"), .dataType) ∈
      (colorModel.addEnum (emptyEnum "shade")).bindings := List.mem_cons_self
  obtain ⟨ds, hds⟩ :
      ∃ ds, colorModel.descriptors (Model.standardSetting "https://first") = .ok ds := ⟨_, rfl⟩
  obtain ⟨ds', hds'⟩ : ∃ ds', (colorModel.addEnum (emptyEnum "shade")).descriptors
      (Model.standardSetting "https://second") = .ok ds' := ⟨_, rfl⟩
  obtain ⟨file, hfile⟩ := hlocal.emits _ _ ds hds _ _ hcolor
  obtain ⟨file', hfile'⟩ := hlocal.emits _ _ ds' hds' _ _ hshade
  have hspace : colorModel.space = (colorModel.addEnum (emptyEnum "shade")).space := rfl
  obtain ⟨hpath, htext⟩ := hlocal.alike _ _ _ _ hspace _ _ _ (.refl _) _ _ hfile hfile'
  obtain rfl : file = file' := Prod.ext hpath (htext nofun)
  exact ⟨hlocal, file, hfile, hfile'⟩

end SdkHeaders
