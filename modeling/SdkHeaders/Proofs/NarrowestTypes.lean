import SdkHeaders.Derive.IntType

/-!
# Narrowest integer types

The integer type of an enumeration is the narrowest one for its values.  It is unsigned unless a
value is negative, no other type that is signed or unsigned as it is holds the values with fewer
bits, and the order of the values does not matter.

Main results:

- Theorem `Width.bits_first_le`: the first width that passes a test is the narrowest one.
- Theorem `EnumDecl.bits_intType_le_of_holds`: a type that holds the values of an enumeration, and
  is signed or unsigned as the selected type is, is at least as wide.
- Theorem `EnumDecl.bits_intType_le_of_subset`: further values never narrow the type.
- Theorem `EnumDecl.intType_narrowest` puts these facts together for the members of an enumeration.
-/

namespace SdkHeaders

theorem Width.bits_le (w : Width) : w.bits ≤ 64 := by
  cases w <;> decide

/-- The first width that passes a test is not wider than any other that passes it. -/
theorem Width.bits_first_le {fits : Width → Bool} {w : Width} (h : fits w = true) :
    (first fits).bits ≤ w.bits := by
  unfold first
  split
  · cases w <;> decide
  split
  · cases w with
    | w8 => contradiction
    | _ => decide
  split
  · cases w with
    | w8 => contradiction
    | w16 => contradiction
    | _ => decide
  · cases w with
    | w64 => decide
    | _ => contradiction

namespace EnumDecl

/-- Whether a type of the given width, signed if a value is negative, holds the bounds. -/
def fitsBounds (e : EnumDecl) (w : Width) : Bool :=
  decide (IntType.least ⟨decide (e.valueRange.1 < 0), w⟩ ≤ e.valueRange.1) &&
    decide (e.valueRange.2 ≤ IntType.greatest ⟨decide (e.valueRange.1 < 0), w⟩)

theorem intType_eq (e : EnumDecl) :
    e.intType = ⟨decide (e.valueRange.1 < 0), Width.first e.fitsBounds⟩ := rfl

theorem fitsBounds_eq_true_iff {e : EnumDecl} {t : IntType}
    (h : t.signed = e.intType.signed) :
    e.fitsBounds t.width = true ↔ t.least ≤ e.valueRange.1 ∧ e.valueRange.2 ≤ t.greatest := by
  have htype : t = ⟨decide (e.valueRange.1 < 0), t.width⟩ := by
    rw [← show t.signed = decide (e.valueRange.1 < 0) from h]
  rw [fitsBounds, Bool.and_eq_true, decide_eq_true_eq, decide_eq_true_eq, ← htype]

variable {e e' : EnumDecl}

/-- The selected type is unsigned exactly if no value is negative. -/
theorem signed_intType_eq_false_iff : e.intType.signed = false ↔ ∀ x ∈ e.values, 0 ≤ x := by
  have hsigned : e.intType.signed = false ↔ 0 ≤ e.valueRange.1 := by
    rw [intType_eq, decide_eq_false_iff_not, Int.not_lt]
  rw [hsigned]
  constructor
  · intro hlow x hx
    exact Int.le_trans hlow (e.valueRange_contains hx).1
  · intro hvalues
    by_cases hempty : e.values = []
    · rw [valueRange, hempty]
      exact Int.le_refl 0
    · exact hvalues _ (valueRange_mem hempty).1

/-- A type that holds the values of an enumeration holds everything between its bounds. -/
theorem bounds_of_holds {t : IntType} (h : ∀ x ∈ e.values, t.Holds x) :
    t.least ≤ e.valueRange.1 ∧ e.valueRange.2 ≤ t.greatest := by
  by_cases hempty : e.values = []
  · rw [valueRange, hempty]
    exact t.holds_zero
  · obtain ⟨hlow, hhigh⟩ := valueRange_mem hempty
    exact ⟨(h _ hlow).1, (h _ hhigh).2⟩

/-- A type that holds the values is at least as wide as the selected type, if both are signed or
both are unsigned. -/
theorem bits_intType_le_of_holds {t : IntType} (hsigned : t.signed = e.intType.signed)
    (h : ∀ x ∈ e.values, t.Holds x) : e.intType.width.bits ≤ t.width.bits := by
  rw [intType_eq]
  exact Width.bits_first_le ((fitsBounds_eq_true_iff hsigned).mpr (bounds_of_holds h))

/-- The selected type holds the values unless it is of the largest width. -/
theorem holds_or_width_eq (e : EnumDecl) :
    (∀ x ∈ e.values, e.intType.Holds x) ∨ e.intType.width = .w64 := by
  rcases Width.first_spec e.fitsBounds with hfits | hwidest
  · obtain ⟨hleast, hgreatest⟩ := (fitsBounds_eq_true_iff (t := e.intType) rfl).mp hfits
    refine .inl fun x hx => ?_
    obtain ⟨habove, hbelow⟩ := e.valueRange_contains hx
    exact ⟨Int.le_trans hleast habove, Int.le_trans hbelow hgreatest⟩
  · exact .inr hwidest

/-- Further values never narrow the selected type, unless they make it a signed one. -/
theorem bits_intType_le_of_subset (hvalues : e.values ⊆ e'.values)
    (hsigned : e'.intType.signed = e.intType.signed) :
    e.intType.width.bits ≤ e'.intType.width.bits := by
  rcases e'.holds_or_width_eq with hholds | hwidest
  · exact bits_intType_le_of_holds hsigned fun x hx => hholds x (hvalues hx)
  · rw [hwidest]
    exact e.intType.width.bits_le

/-- The bounds depend on which values there are only. -/
theorem valueRange_congr (h : ∀ x, x ∈ e.values ↔ x ∈ e'.values) :
    e.valueRange = e'.valueRange := by
  by_cases hempty : e.values = []
  · have hempty' : e'.values = [] := List.eq_nil_iff_forall_not_mem.mpr fun x hx => by
      rw [← h, hempty] at hx
      cases hx
    rw [valueRange, valueRange, hempty, hempty']
  · have hempty' : e'.values ≠ [] := fun heq => by
      obtain ⟨first, rest, hvalues⟩ := List.exists_cons_of_ne_nil hempty
      have hfirst := (h first).mp (hvalues ▸ List.mem_cons_self)
      rw [heq] at hfirst
      cases hfirst
    obtain ⟨hlow, hhigh⟩ := valueRange_mem hempty
    obtain ⟨hlow', hhigh'⟩ := valueRange_mem hempty'
    apply Prod.ext
    · exact Int.le_antisymm (e.valueRange_contains ((h _).mpr hlow')).1
        (e'.valueRange_contains ((h _).mp hlow)).1
    · exact Int.le_antisymm (e'.valueRange_contains ((h _).mp hhigh)).2
        (e.valueRange_contains ((h _).mpr hhigh')).2

/-- The integer type of an enumeration whose values have signed 64 bits holds the value of each
member and is unsigned exactly if none is negative; of the types that are signed or unsigned as it
is, no narrower one holds all values.  A further member never narrows it to such a type, and the
order of the members does not matter. -/
theorem intType_narrowest (e : EnumDecl)
    (h : ∀ member ∈ e.members, ∀ x ∈ member.value, -Int.pow 2 63 ≤ x ∧ x < Int.pow 2 63) :
    (∀ member ∈ e.members, e.intType.Holds (member.value.getD 0)) ∧
      (e.intType.signed = false ↔ ∀ member ∈ e.members, 0 ≤ member.value.getD 0) ∧
      (∀ t : IntType, t.signed = e.intType.signed → t.width.bits < e.intType.width.bits →
        ∃ member ∈ e.members, ¬ t.Holds (member.value.getD 0)) ∧
      (∀ member, let more : EnumDecl := { e with members := e.members ++ [member] }
        more.intType.signed = e.intType.signed →
          e.intType.width.bits ≤ more.intType.width.bits) ∧
      ∀ ms : List EnumMember, ms.Perm e.members →
        ({ e with members := ms } : EnumDecl).intType = e.intType := by
  have hvalues : ∀ x ∈ e.values, -Int.pow 2 63 ≤ x ∧ x < Int.pow 2 63 := by
    refine List.forall_mem_map.mpr fun member hmember => ?_
    cases hvalue : member.value with
    | none => decide
    | some x => exact h member hmember x hvalue
  refine ⟨fun member hmember => intType_holds hvalues (List.mem_map_of_mem hmember), ?_, ?_, ?_, ?_⟩
  · rw [signed_intType_eq_false_iff, values, List.forall_mem_map]
  · intro t hsigned hnarrow
    refine Decidable.byContradiction fun hnone => ?_
    have hall : ∀ x ∈ e.values, t.Holds x := List.forall_mem_map.mpr fun member hmember =>
      Decidable.byContradiction fun hnot => hnone ⟨member, hmember, hnot⟩
    exact Nat.not_lt.mpr (bits_intType_le_of_holds hsigned hall) hnarrow
  · intro member more hsigned
    refine bits_intType_le_of_subset (fun x hx => ?_) hsigned
    rw [values, List.map_append]
    exact List.mem_append_left _ hx
  · intro ms hperm
    have hsame : ∀ x, x ∈ ({ e with members := ms } : EnumDecl).values ↔ x ∈ e.values :=
      fun x => (hperm.map fun member => member.value.getD 0).mem_iff
    rw [intType, intType, valueRange_congr hsame]

/-- Members at the greatest values of two widths, and one without a value. -/
def sizeEnum : EnumDecl :=
  ⟨"size", false, [⟨"large", some 65535⟩, ⟨"none", none⟩, ⟨"small", some 255⟩]⟩

theorem sizeEnum_narrowest :
    (∀ member ∈ sizeEnum.members, ∀ x ∈ member.value, -Int.pow 2 63 ≤ x ∧ x < Int.pow 2 63) ∧
      (∀ member ∈ sizeEnum.members, IntType.Holds ⟨false, .w16⟩ (member.value.getD 0)) ∧
      (∃ member ∈ sizeEnum.members, ¬ IntType.Holds ⟨false, .w8⟩ (member.value.getD 0)) ∧
      ({ sizeEnum with members := sizeEnum.members.reverse } : EnumDecl).intType =
        ⟨false, .w16⟩ := by
  have hvalues : ∀ member ∈ sizeEnum.members, ∀ x ∈ member.value,
      -Int.pow 2 63 ≤ x ∧ x < Int.pow 2 63 := by decide
  have htype : sizeEnum.intType = ⟨false, .w16⟩ := by decide
  obtain ⟨hholds, -, hnarrow, -, horder⟩ := intType_narrowest sizeEnum hvalues
  rw [htype] at hholds hnarrow horder
  exact ⟨hvalues, hholds, hnarrow ⟨false, .w8⟩ rfl (by decide), horder _ (List.reverse_perm _)⟩

end EnumDecl

end SdkHeaders
