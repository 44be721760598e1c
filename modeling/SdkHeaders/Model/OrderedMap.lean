/-!
# Maps in insertion order

A map from names to values that remembers the order in which its names were first inserted.
Inserting a name again replaces the value at its old place.

Main results:

- Theorem `OrderedMap.keys_insert`: insertion appends a new name and leaves the names alone
  otherwise.
- Theorem `OrderedMap.get?_insert`: a look-up finds the value inserted last.
-/

namespace SdkHeaders

/-- A map from names to values, listed in the order of first insertion. -/
structure OrderedMap (α : Type) where
  /-- The entries of the map. -/
  entries : List (String × α)
  deriving DecidableEq, Repr

namespace OrderedMap

variable {α : Type}

/-- The map without entries. -/
def empty : OrderedMap α := ⟨[]⟩

instance : Inhabited (OrderedMap α) := ⟨empty⟩

/-- Replace the value under a name, or append the name. -/
def insertEntry (key : String) (value : α) : List (String × α) → List (String × α)
  | [] => [(key, value)]
  | entry :: rest =>
      if entry.1 = key then (key, value) :: rest
      else entry :: insertEntry key value rest

/-- Store a value under a name. -/
def insert (map : OrderedMap α) (key : String) (value : α) : OrderedMap α :=
  ⟨insertEntry key value map.entries⟩

/-- The value stored under a name. -/
def get? (map : OrderedMap α) (key : String) : Option α :=
  map.entries.lookup key

/-- The names of the map in order. -/
def keys (map : OrderedMap α) : List String :=
  map.entries.map Prod.fst

/-- The values of the map in order. -/
def values (map : OrderedMap α) : List α :=
  map.entries.map Prod.snd

/-- The number of entries. -/
def size (map : OrderedMap α) : Nat :=
  map.entries.length

/-- Insertion appends a new name and changes no name otherwise. -/
theorem keys_insert (map : OrderedMap α) (key : String) (value : α) :
    (map.insert key value).keys =
      if key ∈ map.keys then map.keys else map.keys ++ [key] := by
  obtain ⟨entries⟩ := map
  simp only [insert, keys]
  induction entries with
  | nil => simp [insertEntry]
  | cons entry rest ih =>
      unfold insertEntry
      by_cases h : entry.1 = key
      · simp [h]
      · have hne : key ≠ entry.1 := fun he => h he.symm
        simp only [if_neg h, List.map_cons, List.mem_cons, ih, hne, false_or]
        by_cases hmem : key ∈ rest.map Prod.fst <;> simp [hmem]

/-- A look-up after an insertion finds the new value under its name and the old values
elsewhere. -/
theorem get?_insert (map : OrderedMap α) (key other : String) (value : α) :
    (map.insert key value).get? other =
      if other = key then some value else map.get? other := by
  obtain ⟨entries⟩ := map
  simp only [insert, get?]
  induction entries with
  | nil =>
      by_cases h : other = key
      · simp [insertEntry, h]
      · have hb : (other == key) = false := by simpa using h
        simp [insertEntry, List.lookup_cons, h, hb]
  | cons entry rest ih =>
      obtain ⟨k, v⟩ := entry
      unfold insertEntry
      by_cases h : k = key
      · subst h
        by_cases ho : other = k
        · simp [ho]
        · have hb : (other == k) = false := by simpa using ho
          simp [List.lookup_cons, ho, hb]
      · simp only [if_neg h, List.lookup_cons, ih]
        by_cases ho : other = k
        · subst ho
          simp [h]
        · have hb : (other == k) = false := by simpa using ho
          simp [hb]

end OrderedMap

end SdkHeaders
