/-!
# Sorted sets of names

A set of names kept as a strictly increasing list, in the order of their characters'
codes, which is also the order of their bytes.

Main results:

- Definition `NameSet.insert` adds a name, and `NameSet.mem_insert` says that nothing else
  changes.
- Theorem `NameSet.sorted_insert`: insertion keeps the list strictly increasing.
-/

namespace SdkHeaders.Text

/-- A set of names, listed in increasing order. -/
structure NameSet where
  /-- The names of the set. -/
  toList : List String
  deriving DecidableEq, Repr

namespace NameSet

/-- The set without names. -/
def empty : NameSet := ⟨[]⟩

instance : Inhabited NameSet := ⟨empty⟩

/-- Insert a name in front of the first larger one, unless it is there already. -/
def insertSorted (name : String) : List String → List String
  | [] => [name]
  | other :: rest =>
      if name < other then name :: other :: rest
      else if name = other then other :: rest
      else other :: insertSorted name rest

/-- Add a name to the set. -/
def insert (set : NameSet) (name : String) : NameSet :=
  ⟨insertSorted name set.toList⟩

/-- Add several names to the set. -/
def insertAll (set : NameSet) (names : List String) : NameSet :=
  names.foldl insert set

/-- The set of the names in a list. -/
def ofList (names : List String) : NameSet :=
  empty.insertAll names

/-- Whether the set has no names. -/
def isEmpty (set : NameSet) : Bool :=
  set.toList.isEmpty

/-- A name is in a sorted list after insertion iff it was or is the inserted one. -/
theorem mem_insertSorted {x name : String} {names : List String} :
    x ∈ insertSorted name names ↔ x = name ∨ x ∈ names := by
  induction names with
  | nil => simp [insertSorted]
  | cons other rest ih =>
      unfold insertSorted
      split
      · simp
      · split
        · next heq => subst heq; simp
        · simp only [List.mem_cons, ih]
          constructor
          · rintro (h | h | h)
            · exact Or.inr (Or.inl h)
            · exact Or.inl h
            · exact Or.inr (Or.inr h)
          · rintro (h | h | h)
            · exact Or.inr (Or.inl h)
            · exact Or.inl h
            · exact Or.inr (Or.inr h)

/-- Insertion adds the given name and nothing else. -/
@[simp] theorem mem_insert {x name : String} {set : NameSet} :
    x ∈ (set.insert name).toList ↔ x = name ∨ x ∈ set.toList :=
  mem_insertSorted

/-- Two names neither of which is smaller are equal. -/
theorem eq_of_not_lt {a b : String} (h : ¬ a < b) (h' : ¬ b < a) : a = b :=
  String.le_antisymm h' h

/-- Insertion into a strictly increasing list keeps it so. -/
theorem pairwise_insertSorted {name : String} {names : List String}
    (h : names.Pairwise (· < ·)) : (insertSorted name names).Pairwise (· < ·) := by
  induction names with
  | nil => simp [insertSorted]
  | cons other rest ih =>
      rw [List.pairwise_cons] at h
      unfold insertSorted
      split
      · next hlt =>
          refine List.pairwise_cons.mpr ⟨?_, List.pairwise_cons.mpr h⟩
          intro x hx
          rcases List.mem_cons.mp hx with rfl | hx
          · exact hlt
          · exact String.lt_trans hlt (h.1 x hx)
      · next hnlt =>
          split
          · exact List.pairwise_cons.mpr h
          · next hne =>
              refine List.pairwise_cons.mpr ⟨?_, ih h.2⟩
              intro x hx
              rcases mem_insertSorted.mp hx with rfl | hx
              · by_cases hlt : other < x
                · exact hlt
                · exact absurd (eq_of_not_lt hnlt hlt) hne
              · exact h.1 x hx

/-- Insertion keeps the names of a set strictly increasing. -/
theorem sorted_insert {name : String} {set : NameSet} (h : set.toList.Pairwise (· < ·)) :
    (set.insert name).toList.Pairwise (· < ·) :=
  pairwise_insertSorted h

end NameSet

end SdkHeaders.Text
