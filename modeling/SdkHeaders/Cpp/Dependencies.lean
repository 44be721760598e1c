import SdkHeaders.Cpp.TypeExpr
import SdkHeaders.Text.NameSet

/-!
# Dependencies of a declaration

The names that have to be declared before a declaration can be read.

Main results:

- Structure `Dependencies` collects the names for one owner.
- Definitions `Dependencies.addSystem`, `Dependencies.addUser` and `Dependencies.merge` add
  names; empty names and the owner's own name are left out.
- Theorems `Dependencies.mem_system_addSystem` and `Dependencies.mem_user_addUser` say which
  names are present afterwards.
-/

namespace SdkHeaders

open Text (NameSet)

/-- The names that the declaration of an owner depends on. -/
structure Dependencies where
  /-- The name of the declaration that has these dependencies. -/
  owner : String
  /-- The names from the language and its libraries. -/
  system : NameSet
  /-- The names that other headers declare. -/
  user : NameSet
  deriving DecidableEq, Repr

namespace Dependencies

/-- An owner without dependencies. -/
def new (owner : String) : Dependencies :=
  ⟨owner, .empty, .empty⟩

/-- Add a name from the language or its libraries. -/
def addSystem (d : Dependencies) (name : String) : Dependencies :=
  if name = "" then d else { d with system := d.system.insert name }

/-- Add a name that another header declares. -/
def addUser (d : Dependencies) (name : String) : Dependencies :=
  if name = "" ∨ name = d.owner then d else { d with user := d.user.insert name }

/-- Add a type name. -/
def add (d : Dependencies) : TypeName → Dependencies
  | .system name => d.addSystem name
  | .user name => d.addUser name

/-- Add several names from the language or its libraries. -/
def addSystems (d : Dependencies) (names : List String) : Dependencies :=
  names.foldl addSystem d

/-- Add several names that other headers declare. -/
def addUsers (d : Dependencies) (names : List String) : Dependencies :=
  names.foldl addUser d

/-- Add the names of another set of dependencies. -/
def merge (d other : Dependencies) : Dependencies :=
  (d.addSystems other.system.toList).addUsers other.user.toList

/-- Whether nothing is depended on. -/
def isEmpty (d : Dependencies) : Bool :=
  d.system.isEmpty && d.user.isEmpty

/-- Adding a name leaves the owner alone. -/
@[simp] theorem owner_addSystem (d : Dependencies) (name : String) :
    (d.addSystem name).owner = d.owner := by
  unfold addSystem
  split <;> rfl

/-- Adding a name of another header leaves the owner alone. -/
@[simp] theorem owner_addUser (d : Dependencies) (name : String) :
    (d.addUser name).owner = d.owner := by
  unfold addUser
  split <;> rfl

/-- After adding a name, it is present unless it is empty. -/
theorem mem_system_addSystem {d : Dependencies} {name x : String} :
    x ∈ (d.addSystem name).system.toList ↔ (x = name ∧ x ≠ "") ∨ x ∈ d.system.toList := by
  unfold addSystem
  split
  · next h =>
      subst h
      constructor
      · exact Or.inr
      · rintro (⟨rfl, h⟩ | h)
        · exact absurd rfl h
        · exact h
  · next h =>
      simp only [NameSet.mem_insert]
      constructor
      · rintro (rfl | hx)
        · exact Or.inl ⟨rfl, h⟩
        · exact Or.inr hx
      · rintro (⟨rfl, -⟩ | hx)
        · exact Or.inl rfl
        · exact Or.inr hx

/-- After adding a name of another header, it is present unless it is empty or the owner's
own. -/
theorem mem_user_addUser {d : Dependencies} {name x : String} :
    x ∈ (d.addUser name).user.toList ↔
      (x = name ∧ x ≠ "" ∧ x ≠ d.owner) ∨ x ∈ d.user.toList := by
  unfold addUser
  split
  · next h =>
      constructor
      · exact Or.inr
      · rintro (⟨rfl, hne, hown⟩ | hx)
        · rcases h with h | h
          · exact absurd h hne
          · exact absurd h hown
        · exact hx
  · next h =>
      simp only [not_or] at h
      simp only [NameSet.mem_insert]
      constructor
      · rintro (rfl | hx)
        · exact Or.inl ⟨rfl, h⟩
        · exact Or.inr hx
      · rintro (⟨rfl, -⟩ | hx)
        · exact Or.inl rfl
        · exact Or.inr hx

end Dependencies

end SdkHeaders
