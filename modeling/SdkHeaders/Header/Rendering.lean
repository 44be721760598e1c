import SdkHeaders.Derive.Binding
import SdkHeaders.Header.Client
import SdkHeaders.Header.Collection

/-!
# Headers of descriptors

The header of every element in every role that it can play, and the headers of a whole
model.

Main results:

- Definition `Descriptor.render` makes the header of a descriptor.
- Theorem `Descriptor.render_isOk`: every descriptor has a header.
- Definitions `Model.descriptors`, `Model.entities`, `Model.files` and `Model.preview` make the
  headers of a model.
-/

namespace SdkHeaders

open Header

/-! ## One header -/

/-- The header of a role that has two facets. -/
def Descriptor.renderFacet (naming : Naming) (d : Descriptor) (contract : Contract) : Entity :=
  contract.entity d.role (naming.descriptorName d)
    (naming.roleName d.element (d.role.withFacet .interface))

/-- The header of a descriptor. -/
def Descriptor.render (setting : Setting) (d : Descriptor) : Derived Entity :=
  let target := setting.target
  let naming := target.naming
  match d.role with
  | .dataType =>
      match d.element with
      | .ofEnum e => .ok (e.dataEntity target)
      | _ => d.asClass.map fun c => c.dataEntity target
  | .request _ => d.asClass.map fun c => d.renderFacet naming (requestContract naming c)
  | .requestBuilder _ =>
      d.asClass.map fun c => d.renderFacet naming (requestBuilderContract naming c)
  | .client _ => d.asClass.map fun c => d.renderFacet naming (clientContract setting c)
  | .collectionPage _ =>
      d.asProperty.map fun (owner, p) => d.renderFacet naming (pageContract target owner p)
  | .collectionRequest _ =>
      d.asProperty.map fun (owner, p) =>
        d.renderFacet naming (collectionRequestContract target owner p)
  | .collectionRequestBuilder _ =>
      d.asProperty.map fun (owner, p) =>
        d.renderFacet naming (collectionRequestBuilderContract target owner p)
  | .collectionResponse => d.asProperty.map fun (owner, p) => responseEntity target owner p

/-- A class accepts no role of a collection. -/
theorem Descriptor.isCollection_eq_false {c : ClassDecl} {role : Role}
    (h : (Element.ofClass c).accepts role = true) : role.isCollection = false := by
  cases hk : c.kind <;> simp only [Element.accepts, hk] at h <;>
    revert h <;> cases role <;>
      simp [Role.isCollection, Role.ofCollection, Role.ofEntity, Role.ofContainer]

/-- Every descriptor has a header. -/
theorem Descriptor.render_isOk (setting : Setting) (d : Descriptor) :
    ∃ e, d.render setting = .ok e := by
  obtain ⟨element, role, h⟩ := d
  cases element with
  | ofEnum e =>
      simp only [Element.accepts, decide_eq_true_eq] at h
      subst h
      exact ⟨_, rfl⟩
  | ofClass c =>
      have hrole := Descriptor.isCollection_eq_false h
      cases role with
      | dataType => exact ⟨_, rfl⟩
      | request f => exact ⟨_, rfl⟩
      | requestBuilder f => exact ⟨_, rfl⟩
      | client f => exact ⟨_, rfl⟩
      | collectionPage f => cases f <;> simp [Role.isCollection, Role.ofCollection] at hrole
      | collectionRequest f => cases f <;> simp [Role.isCollection, Role.ofCollection] at hrole
      | collectionRequestBuilder f =>
          cases f <;> simp [Role.isCollection, Role.ofCollection] at hrole
      | collectionResponse => simp [Role.isCollection, Role.ofCollection] at hrole
  | ofProperty owner p =>
      simp only [Element.accepts, Bool.and_eq_true] at h
      have hrole := h.1.1
      cases role with
      | collectionPage f => exact ⟨_, rfl⟩
      | collectionRequest f => exact ⟨_, rfl⟩
      | collectionRequestBuilder f => exact ⟨_, rfl⟩
      | collectionResponse => exact ⟨_, rfl⟩
      | dataType => simp [Role.isCollection, Role.ofCollection] at hrole
      | request f => cases f <;> simp [Role.isCollection, Role.ofCollection] at hrole
      | requestBuilder f => cases f <;> simp [Role.isCollection, Role.ofCollection] at hrole
      | client f => cases f <;> simp [Role.isCollection, Role.ofCollection] at hrole

/-! ## All headers of a model -/

namespace Model

/-- The address of the service unless another one is given. -/
def defaultServiceUrl : String := "https://graph.microsoft.com/v1.0"

/-- The usual tables with an address. -/
def standardSetting (serviceUrl : String) : Setting :=
  ⟨.standard, serviceUrl⟩

/-- The namespace of the headers. -/
def headerSpace (model : Model) : String :=
  Text.titleizeNamespace model.space

/-- The descriptors of a model, provided that their names can stand side by side. -/
def descriptors (setting : Setting) (model : Model) : Derived (List Descriptor) := do
  let ds ← model.bind
  checkUnique setting.target.naming setting.target.frameworkTypes ds
  return ds

/-- The headers of a model. -/
def entities (setting : Setting) (model : Model) : Derived (List Entity) := do
  (← model.descriptors setting).mapM (·.render setting)

/-- The files of a model: their names and texts. -/
def files (setting : Setting) (model : Model) : Derived (List (String × String)) := do
  return (← model.entities setting).map fun e =>
    (setting.target.headerFile e.name, e.fileText setting.target model.headerSpace)

/-- A header that is shown and not saved. -/
structure PreviewFile where
  /-- The path of the header in the folder where it would be saved. -/
  path : String
  /-- The text of the header. -/
  content : String
  deriving DecidableEq, Repr

/-- The files of a model as they are shown. -/
def preview (setting : Setting) (model : Model) : Derived (List PreviewFile) := do
  return (← model.files setting).map fun file => ⟨file.1, file.2⟩

end Model

end SdkHeaders
