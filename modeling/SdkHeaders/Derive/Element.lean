import SdkHeaders.Derive.Role
import SdkHeaders.Model.Basic

/-!
# Elements and descriptors

What declarations are made of: an element of a model together with a role that it can play.

Main results:

- Type `Element` is a class, an enumeration or a property with its owner.
- Structure `Descriptor` pairs an element with a role that it accepts.
- Definitions `Descriptor.asClass`, `Descriptor.asEnum` and `Descriptor.asProperty` view the
  element of a descriptor.
- Type `DerivationError` lists what can go wrong.
-/

namespace SdkHeaders

/-! ## Elements -/

/-- An element of a model that declarations are made of. -/
inductive Element where
  /-- An enumeration. -/
  | ofEnum (e : EnumDecl)
  /-- A class. -/
  | ofClass (c : ClassDecl)
  /-- A property together with the class that declares it. -/
  | ofProperty (owner : ClassDecl) (p : Property)
  deriving DecidableEq, Repr

namespace Element

/-- The name of the element in the model. -/
def name : Element → String
  | ofEnum e => e.name
  | ofClass c => c.name
  | ofProperty _ p => p.name

/-- The element as it is called in messages. -/
def describe : Element → String
  | ofEnum e => "enum '" ++ e.name ++ "'"
  | ofClass c => c.kind.text ++ " class '" ++ c.name ++ "'"
  | ofProperty owner p => "property '" ++ owner.name ++ "." ++ p.name ++ "'"

/-- Whether the element can play a role. -/
def accepts : Element → Role → Bool
  | ofEnum _, role => role = .dataType
  | ofClass c, role =>
      match c.kind with
      | .complex => role = .dataType
      | .entity => Role.ofEntity.contains role
      | .container => Role.ofContainer.contains role
  | ofProperty _ p, role => role.isCollection && p.collection && p.navigation

end Element

/-! ## Descriptors -/

/-- An element in a role that it can play. -/
structure Descriptor where
  /-- The element. -/
  element : Element
  /-- The role. -/
  role : Role
  /-- The element can play the role. -/
  accepted : element.accepts role = true
  deriving DecidableEq, Repr

/-- The descriptor as it is called in messages. -/
def Descriptor.describe (d : Descriptor) : String :=
  d.role.text ++ " of " ++ d.element.describe

/-- What already has a name. -/
inductive Claimant where
  /-- A type of the supporting framework. -/
  | framework (name : String)
  /-- The declaration of a descriptor. -/
  | descriptor (d : Descriptor)
  deriving DecidableEq, Repr

/-- The claimant as it is called in messages. -/
def Claimant.describe : Claimant → String
  | framework name => "framework type '" ++ name ++ "'"
  | descriptor d => d.describe

/-- Why declarations cannot be derived from a model. -/
inductive DerivationError where
  /-- An element cannot play a role. -/
  | roleMismatch (role : Role) (element : Element)
  /-- Two declarations would have the same name. -/
  | duplicateName (name : String) (first : Claimant) (second : Descriptor)
  deriving DecidableEq, Repr

/-- The sentence that states a derivation error. -/
def DerivationError.message : DerivationError → String
  | roleMismatch role element =>
      "role '" ++ role.text ++ "' cannot be derived from " ++ element.describe
  | duplicateName name first second =>
      "two types are both named '" ++ name ++ "' (" ++ first.describe ++ " and " ++
        second.describe ++ ")"

/-- The outcome of a derivation. -/
abbrev Derived := Except DerivationError

namespace Descriptor

/-- Pair an element with a role, if it accepts it. -/
def new (element : Element) (role : Role) : Derived Descriptor :=
  if h : element.accepts role = true then .ok ⟨element, role, h⟩
  else .error (.roleMismatch role element)

/-- The class of a descriptor. -/
def asClass (d : Descriptor) : Derived ClassDecl :=
  match d.element with
  | .ofClass c => .ok c
  | other => .error (.roleMismatch d.role other)

/-- The enumeration of a descriptor. -/
def asEnum (d : Descriptor) : Derived EnumDecl :=
  match d.element with
  | .ofEnum e => .ok e
  | other => .error (.roleMismatch d.role other)

/-- The property of a descriptor, with its owner. -/
def asProperty (d : Descriptor) : Derived (ClassDecl × Property) :=
  match d.element with
  | .ofProperty owner p => .ok (owner, p)
  | other => .error (.roleMismatch d.role other)

/-- An element is paired with exactly the roles that it accepts. -/
theorem new_eq_ok_iff {element : Element} {role : Role} {d : Descriptor} :
    new element role = .ok d ↔ d.element = element ∧ d.role = role := by
  unfold new
  constructor
  · intro h
    split at h
    · cases h
      exact ⟨rfl, rfl⟩
    · cases h
  · rintro ⟨rfl, rfl⟩
    rw [dif_pos d.accepted]

end Descriptor

end SdkHeaders
