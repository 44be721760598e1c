import SdkHeaders.Cpp.Target

/-!
# Names and reserved words

Which names the conventions of the target respell.  Reserved words start with a small letter, so
that a capitalized name is never one of them, and none ends in an underscore, so that a respelled
word is not reserved.

Main results:

- Theorem `Text.isLower_of_mem_head?_upper`: no capital form starts with a small letter.
- Theorem `Cpp.capitalize_not_mem_keywords`: a capitalized name is not reserved, so that by theorem
  `Cpp.typeName_eq_capitalize` it is never respelled.
- Theorem `Cpp.memberName_eq_iff`: two names share a member name exactly if they are equal or if
  one is what the other, a reserved word, is respelled as.
-/

namespace SdkHeaders

/-! ## First letters of capitalized names -/

namespace Text

theorem isLower_eq_false_iff (c : Char) :
    c.isLower = false ↔ c.toNat < 97 ∨ 122 < c.toNat := by
  unfold Char.isLower
  rw [Bool.and_eq_false_iff, decide_eq_false_iff_not, decide_eq_false_iff_not]
  simp only [ge_iff_le, UInt32.le_iff_toNat_le, Char.toNat_val]
  change ¬ 97 ≤ c.toNat ∨ ¬ c.toNat ≤ 122 ↔ _
  omega

theorem isLower_ofNat {code : Nat} (h : code < 97 ∨ 122 < code) :
    (Char.ofNat code).isLower = false := by
  rw [isLower_eq_false_iff]
  by_cases hvalid : code.isValidChar
  · have hcode : (Char.ofNat code).toNat = code := by
      rw [Char.ofNat, dif_pos hvalid]
      rfl
    omega
  · have hcode : (Char.ofNat code).toNat = 0 := by
      rw [Char.ofNat, dif_neg hvalid]
      rfl
    omega

/-- Moving a code along the runs of capitals does not make it that of a small letter. -/
theorem shiftCode_upperRuns {code : Nat} (h : 128 ≤ code) :
    shiftCode upperRuns code < 97 ∨ 122 < shiftCode upperRuns code := by
  have hruns : ∀ run ∈ upperRuns, run.image + (run.last - run.first) < 97 ∨ 122 < run.image := by
    decide +kernel
  unfold shiftCode
  split
  · next run hfind =>
      have himage := hruns run (List.mem_of_find?_eq_some hfind)
      have hholds := List.find?_some hfind
      simp only [CaseRun.holds, Bool.and_eq_true, decide_eq_true_eq] at hholds
      unfold CaseRun.apply
      omega
  · omega

/-- The capital form of a character does not start with a small letter. -/
theorem isLower_of_mem_head?_upper {c first : Char} (h : first ∈ (upper c).head?) :
    first.isLower = false := by
  have hexpansions : ∀ row ∈ upperExpansions, ∀ code ∈ row.2.head?, code < 97 ∨ 122 < code := by
    decide +kernel
  unfold upper at h
  split at h
  · next hascii =>
      have hsmall : ∀ code < 128, (Char.ofNat code).toUpper.isLower = false := by decide
      rw [List.head?_cons, Option.mem_some_iff] at h
      rw [← h, ← Char.ofNat_toNat c]
      exact hsmall c.toNat hascii
  · next hascii =>
      unfold mapCode at h
      split at h
      · rw [List.head?_cons, Option.mem_some_iff] at h
        rw [← h]
        exact isLower_ofNat (by omega)
      · next code more hlookup =>
          obtain ⟨before, after, hrows, -⟩ := List.lookup_eq_some_iff.mp hlookup
          have hrow := hexpansions (c.toNat, code :: more) (by simp [hrows]) code rfl
          rw [List.head?_cons, Option.mem_some_iff] at h
          rw [← h]
          exact isLower_ofNat hrow
      · rw [List.head?_cons, Option.mem_some_iff] at h
        rw [← h]
        exact isLower_ofNat (shiftCode_upperRuns (by omega))

/-- A capitalized name does not start with a small letter. -/
theorem isLower_of_mem_head?_capitalize {s : String} {first : Char}
    (h : first ∈ (capitalize s).toList.head?) : first.isLower = false := by
  rw [capitalize, String.toList_ofList] at h
  cases hcs : s.toList with
  | nil => simp [hcs, capitalizeChars] at h
  | cons c rest =>
      obtain ⟨d, more, hupper⟩ := List.exists_cons_of_ne_nil (upper_ne_nil c)
      rw [hcs, capitalizeChars, hupper, List.cons_append, List.head?_cons] at h
      apply isLower_of_mem_head?_upper (c := c)
      rw [hupper]
      exact h

end Text

/-! ## Reserved words -/

namespace Cpp

theorem exists_isLower_of_mem_keywords {word : String} (h : word ∈ keywords) :
    ∃ first ∈ word.toList.head?, first.isLower = true := by
  have hall : ∀ word ∈ keywords, word.toList.head?.any Char.isLower = true := by decide +kernel
  exact (Option.any_eq_true Char.isLower word.toList.head?).mp (hall word h)

/-- A capitalized name is not reserved. -/
theorem capitalize_not_mem_keywords (name : String) : Text.capitalize name ∉ keywords := by
  intro hmem
  obtain ⟨first, hfirst, hlower⟩ := exists_isLower_of_mem_keywords hmem
  rw [Text.isLower_of_mem_head?_capitalize hfirst] at hlower
  cases hlower

/-- No reserved word ends in an underscore, so that a respelled word is not reserved. -/
theorem append_underscore_not_mem_keywords (word : String) : word ++ "_" ∉ keywords := by
  have hlast : ∀ word ∈ keywords, word.toList.getLast? ≠ some '_' := by decide +kernel
  intro hmem
  apply hlast _ hmem
  simp

theorem safeName_of_mem {word : String} (h : word ∈ keywords) :
    naming.safeName word = word ++ "_" :=
  if_pos (List.contains_iff_mem.mpr h)

theorem safeName_of_not_mem {name : String} (h : name ∉ keywords) : naming.safeName name = name :=
  if_neg fun hreserved => h (List.contains_iff_mem.mp hreserved)

theorem append_underscore_injective {a b : String} (h : a ++ "_" = b ++ "_") : a = b := by
  have hchars := congrArg String.toList h
  rw [String.toList_append, String.toList_append] at hchars
  exact String.toList_inj.mp (List.append_cancel_right hchars)

/-- Type names are capitalized and never respelled. -/
theorem typeName_eq_capitalize (name : String) : naming.typeName name = Text.capitalize name :=
  safeName_of_not_mem (capitalize_not_mem_keywords name)

/-- Two names share a member name exactly if they are equal or if one is what the other, a reserved
word, is respelled as. -/
theorem memberName_eq_iff {a b : String} :
    naming.memberName a = naming.memberName b ↔
      a = b ∨ (a ∈ keywords ∧ b = a ++ "_") ∨ (b ∈ keywords ∧ a = b ++ "_") := by
  change naming.safeName a = naming.safeName b ↔ _
  constructor
  · intro h
    by_cases ha : a ∈ keywords
    · rw [safeName_of_mem ha] at h
      by_cases hb : b ∈ keywords
      · rw [safeName_of_mem hb] at h
        exact .inl (append_underscore_injective h)
      · rw [safeName_of_not_mem hb] at h
        exact .inr (.inl ⟨ha, h.symm⟩)
    · rw [safeName_of_not_mem ha] at h
      by_cases hb : b ∈ keywords
      · rw [safeName_of_mem hb] at h
        exact .inr (.inr ⟨hb, h⟩)
      · rw [safeName_of_not_mem hb] at h
        exact .inl h
  · rintro (rfl | ⟨ha, rfl⟩ | ⟨hb, rfl⟩)
    · rfl
    · rw [safeName_of_mem ha, safeName_of_not_mem (append_underscore_not_mem_keywords a)]
    · rw [safeName_of_mem hb, safeName_of_not_mem (append_underscore_not_mem_keywords b)]

end Cpp

end SdkHeaders
