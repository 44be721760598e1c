import Mathlib.Tactic.Tauto
import SdkHeaders.Header.Entity

/-!
# Names and the headers they need

What is in the dependencies of a declaration after several names have been added, and which
headers are then included.

Main results:

- Theorems `Dependencies.mem_user_foldl_add` and `Dependencies.mem_system_foldl_add` say which
  names are present.
- Theorems `Dependencies.mem_user_includes` and `Dependencies.mem_system_includes` say which
  headers are included.
-/

namespace SdkHeaders

open Text (NameSet)

/-! ## Sets of names -/

namespace Text.NameSet

/-- A name is present after several insertions exactly if it was present or is inserted. -/
theorem mem_insertAll {x : String} {names : List String} {set : NameSet} :
    x ∈ (set.insertAll names).toList ↔ x ∈ names ∨ x ∈ set.toList := by
  unfold insertAll
  induction names generalizing set with
  | nil => simp
  | cons name rest ih =>
      rw [List.foldl_cons, ih, mem_insert, List.mem_cons]
      tauto

/-- The set of the names in a list has exactly these names. -/
@[simp] theorem mem_ofList {x : String} {names : List String} :
    x ∈ (ofList names).toList ↔ x ∈ names := by
  rw [ofList, mem_insertAll]
  simp [empty]

end Text.NameSet

namespace Dependencies

/-! ## Names that are added one after the other -/

/-- Adding a type name leaves the owner alone. -/
@[simp] theorem owner_add (d : Dependencies) (name : TypeName) :
    (d.add name).owner = d.owner := by
  cases name with
  | system s => exact owner_addSystem d s
  | user s => exact owner_addUser d s

/-- Adding type names leaves the owner alone. -/
@[simp] theorem owner_foldl_add (d : Dependencies) (names : List TypeName) :
    (names.foldl add d).owner = d.owner := by
  induction names generalizing d with
  | nil => rfl
  | cons name rest ih => rw [List.foldl_cons, ih, owner_add]

/-- After adding a type name, a name of another header is present if it is the one added,
unless it is empty or the owner's own. -/
theorem mem_user_add {d : Dependencies} {name : TypeName} {x : String} :
    x ∈ (d.add name).user.toList ↔
      (.user x = name ∧ x ≠ "" ∧ x ≠ d.owner) ∨ x ∈ d.user.toList := by
  cases name with
  | system s =>
      have hsame : (d.addSystem s).user = d.user := by
        unfold addSystem
        split <;> rfl
      simp [add, hsame]
  | user s => simp [add, mem_user_addUser]

/-- After adding a type name, a library name is present if it is the one added, unless it is
empty. -/
theorem mem_system_add {d : Dependencies} {name : TypeName} {x : String} :
    x ∈ (d.add name).system.toList ↔ (.system x = name ∧ x ≠ "") ∨ x ∈ d.system.toList := by
  cases name with
  | system s => simp [add, mem_system_addSystem]
  | user s =>
      have hsame : (d.addUser s).system = d.system := by
        unfold addUser
        split <;> rfl
      simp [add, hsame]

/-- After adding type names, exactly those of other headers among them are present besides
the earlier ones, apart from empty names and the owner's own. -/
theorem mem_user_foldl_add {names : List TypeName} {d : Dependencies} {x : String} :
    x ∈ (names.foldl add d).user.toList ↔
      (.user x ∈ names ∧ x ≠ "" ∧ x ≠ d.owner) ∨ x ∈ d.user.toList := by
  induction names generalizing d with
  | nil => simp
  | cons name rest ih =>
      rw [List.foldl_cons, ih, mem_user_add, owner_add, List.mem_cons]
      tauto

/-- After adding type names, exactly the library names among them are present besides the
earlier ones, apart from empty names. -/
theorem mem_system_foldl_add {names : List TypeName} {d : Dependencies} {x : String} :
    x ∈ (names.foldl add d).system.toList ↔
      (.system x ∈ names ∧ x ≠ "") ∨ x ∈ d.system.toList := by
  induction names generalizing d with
  | nil => simp
  | cons name rest ih =>
      rw [List.foldl_cons, ih, mem_system_add, List.mem_cons]
      tauto

/-! ## Included headers -/

/-- The headers in quotes are the header files of the names that other headers declare. -/
theorem mem_user_includes {d : Dependencies} {target : Target} {header : String} :
    header ∈ (d.includes target).user.toList ↔
      ∃ x ∈ d.user.toList, target.headerFile x = header := by
  rw [includes, NameSet.mem_ofList, List.mem_map]

/-- The headers in angle brackets are those of the library names. -/
theorem mem_system_includes {d : Dependencies} {target : Target} {header : String} :
    header ∈ (d.includes target).system.toList ↔
      ∃ s ∈ d.system.toList, header ∈ target.headersFor s := by
  rw [includes, NameSet.mem_ofList, List.mem_flatMap]

end Dependencies

end SdkHeaders
