import SdkHeaders.Model.Basic

/-!
# Integer types of enumerations

Which integer type is wide enough for the values of an enumeration.

Main results:

- Structure `IntType` is a signed or an unsigned type of 8, 16, 32 or 64 bits.
- Definition `IntType.forRange` selects the narrowest type between two bounds; it is
  unsigned unless the lower bound is negative.
- Definition `EnumDecl.valueRange` gives the bounds of the values of an enumeration.
- Theorem `EnumDecl.valueRange_contains`: every value lies between the bounds.
- Theorem `EnumDecl.intType_holds`: every value of 64 bits is a value of the selected type.
-/

namespace SdkHeaders

/-- The number of bits of an integer type. -/
inductive Width where
  /-- One byte. -/
  | w8
  /-- Two bytes. -/
  | w16
  /-- Four bytes. -/
  | w32
  /-- Eight bytes. -/
  | w64
  deriving DecidableEq, Repr

namespace Width

/-- The number of bits. -/
def bits : Width → Nat
  | w8 => 8
  | w16 => 16
  | w32 => 32
  | w64 => 64

/-- The first width that passes a test; the largest width needs no test. -/
def first (fits : Width → Bool) : Width :=
  if fits w8 then w8 else if fits w16 then w16 else if fits w32 then w32 else w64

/-- The selected width passes the test unless it is the largest one. -/
theorem first_spec (fits : Width → Bool) : fits (first fits) = true ∨ first fits = w64 := by
  unfold first
  by_cases h8 : fits w8 = true
  · simp [h8]
  by_cases h16 : fits w16 = true
  · simp [h8, h16]
  by_cases h32 : fits w32 = true
  · simp [h8, h16, h32]
  · simp [h8, h16, h32]

end Width

/-- An integer type of fixed width. -/
structure IntType where
  /-- Whether the type has negative values. -/
  signed : Bool
  /-- The width of the type. -/
  width : Width
  deriving DecidableEq, Repr

namespace IntType

/-- The smallest value of the type. -/
def least (t : IntType) : Int :=
  if t.signed then -Int.pow 2 (t.width.bits - 1) else 0

/-- The largest value of the type. -/
def greatest (t : IntType) : Int :=
  if t.signed then Int.pow 2 (t.width.bits - 1) - 1 else Int.pow 2 t.width.bits - 1

/-- Whether a number is a value of the type. -/
def Holds (t : IntType) (x : Int) : Prop :=
  t.least ≤ x ∧ x ≤ t.greatest

instance (t : IntType) (x : Int) : Decidable (t.Holds x) :=
  inferInstanceAs (Decidable (_ ∧ _))

/-- Zero is a value of every type. -/
theorem holds_zero (t : IntType) : t.Holds 0 := by
  obtain ⟨signed, width⟩ := t
  cases signed <;> cases width <;> decide

/-- The short name of the type. -/
def tag (t : IntType) : String :=
  (if t.signed then "I" else "U") ++ toString t.width.bits

/-- The narrowest type between two bounds.  It is unsigned unless the lower bound is
negative. -/
def forRange (low high : Int) : IntType :=
  let signed := decide (low < 0)
  ⟨signed, Width.first fun w =>
    decide (least ⟨signed, w⟩ ≤ low) && decide (high ≤ greatest ⟨signed, w⟩)⟩

/-- The narrowest type between two bounds of signed 64 bits contains both. -/
theorem forRange_contains {low high : Int} (hlow : -Int.pow 2 63 ≤ low)
    (hhigh : high < Int.pow 2 63) :
    (forRange low high).least ≤ low ∧ high ≤ (forRange low high).greatest := by
  rcases Width.first_spec fun w => decide (least ⟨decide (low < 0), w⟩ ≤ low) &&
      decide (high ≤ greatest ⟨decide (low < 0), w⟩) with hfits | hwidest
  · rw [Bool.and_eq_true, decide_eq_true_eq, decide_eq_true_eq] at hfits
    exact hfits
  · have hpow : Int.pow 2 63 = 9223372036854775808 := by decide
    have htype : forRange low high = ⟨decide (low < 0), .w64⟩ := by
      rw [forRange, hwidest]
    rw [htype]
    by_cases hneg : low < 0
    · have hbounds : least ⟨true, .w64⟩ = -9223372036854775808 ∧
          greatest ⟨true, .w64⟩ = 9223372036854775807 := by decide
      rw [decide_eq_true hneg, hbounds.1, hbounds.2]
      omega
    · have hbounds : least ⟨false, .w64⟩ = 0 ∧
          greatest ⟨false, .w64⟩ = 18446744073709551615 := by decide
      rw [decide_eq_false hneg, hbounds.1, hbounds.2]
      omega

end IntType

namespace EnumDecl

/-- The values of the members; a member without a value counts as zero. -/
def values (e : EnumDecl) : List Int :=
  e.members.map fun member => member.value.getD 0

/-- The least and the greatest of some numbers, or zero twice if there are none. -/
def bounds : List Int → Int × Int
  | [] => (0, 0)
  | first :: rest => (rest.foldl min first, rest.foldl max first)

/-- The bounds of the values of the members. -/
def valueRange (e : EnumDecl) : Int × Int :=
  bounds e.values

/-- The integer type that holds the values of the members. -/
def intType (e : EnumDecl) : IntType :=
  IntType.forRange e.valueRange.1 e.valueRange.2

/-- A running minimum is at most its start and every number it has passed. -/
theorem foldl_min_le (start : Int) (rest : List Int) :
    rest.foldl min start ≤ start ∧ ∀ x ∈ rest, rest.foldl min start ≤ x := by
  induction rest generalizing start with
  | nil => simp
  | cons y ys ih =>
      obtain ⟨hstart, hrest⟩ := ih (min start y)
      refine ⟨Int.le_trans hstart (Int.min_le_left _ _), ?_⟩
      intro x hx
      rcases List.mem_cons.mp hx with rfl | hx
      · exact Int.le_trans hstart (Int.min_le_right _ _)
      · exact hrest x hx

/-- A running maximum is at least its start and every number it has passed. -/
theorem le_foldl_max (start : Int) (rest : List Int) :
    start ≤ rest.foldl max start ∧ ∀ x ∈ rest, x ≤ rest.foldl max start := by
  induction rest generalizing start with
  | nil => simp
  | cons y ys ih =>
      obtain ⟨hstart, hrest⟩ := ih (max start y)
      refine ⟨Int.le_trans (Int.le_max_left _ _) hstart, ?_⟩
      intro x hx
      rcases List.mem_cons.mp hx with rfl | hx
      · exact Int.le_trans (Int.le_max_right _ _) hstart
      · exact hrest x hx

/-- Every value of an enumeration lies between its bounds. -/
theorem valueRange_contains (e : EnumDecl) {x : Int} (h : x ∈ e.values) :
    e.valueRange.1 ≤ x ∧ x ≤ e.valueRange.2 := by
  unfold valueRange
  cases hv : e.values with
  | nil => simp [hv] at h
  | cons first rest =>
      rw [hv] at h
      simp only [bounds]
      rcases List.mem_cons.mp h with rfl | h
      · exact ⟨(foldl_min_le _ _).1, (le_foldl_max _ _).1⟩
      · exact ⟨(foldl_min_le _ _).2 x h, (le_foldl_max _ _).2 x h⟩

/-- A running choice between two numbers is one of the numbers that it has passed. -/
theorem foldl_mem {choose : Int → Int → Int} (hchoose : ∀ a b, choose a b = a ∨ choose a b = b)
    (start : Int) (rest : List Int) : rest.foldl choose start ∈ start :: rest := by
  induction rest generalizing start with
  | nil => simp
  | cons y ys ih =>
      have hrest := ih (choose start y)
      rw [List.foldl_cons]
      rcases hchoose start y with heq | heq
      · rw [heq] at hrest ⊢
        rcases List.mem_cons.mp hrest with hstart | hrest
        · exact List.mem_cons.mpr (.inl hstart)
        · exact List.mem_cons_of_mem _ (List.mem_cons_of_mem _ hrest)
      · rw [heq] at hrest ⊢
        exact List.mem_cons_of_mem _ hrest

/-- The bounds of an enumeration with members are values of members. -/
theorem valueRange_mem {e : EnumDecl} (h : e.values ≠ []) :
    e.valueRange.1 ∈ e.values ∧ e.valueRange.2 ∈ e.values := by
  obtain ⟨first, rest, hvalues⟩ := List.exists_cons_of_ne_nil h
  rw [valueRange, hvalues]
  constructor
  · apply foldl_mem
    omega
  · apply foldl_mem
    omega

/-- The integer type of an enumeration holds every value of a member if the values have signed
64 bits. -/
theorem intType_holds {e : EnumDecl}
    (hvalues : ∀ x ∈ e.values, -Int.pow 2 63 ≤ x ∧ x < Int.pow 2 63) {x : Int}
    (hx : x ∈ e.values) : e.intType.Holds x := by
  obtain ⟨hlow, hhigh⟩ := valueRange_mem (List.ne_nil_of_mem hx)
  obtain ⟨hleast, hgreatest⟩ :=
    IntType.forRange_contains (hvalues _ hlow).1 (hvalues _ hhigh).2
  obtain ⟨habove, hbelow⟩ := e.valueRange_contains hx
  exact ⟨Int.le_trans hleast habove, Int.le_trans hbelow hgreatest⟩

end EnumDecl

end SdkHeaders
