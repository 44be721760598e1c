import Mathlib.Data.List.Lex
import SdkHeaders.Text.NameSet

/-!
# The order of bytes

Texts are ordered by the codes of their characters.  Their encodings are ordered by their bytes in
the same way, so that sets of names are listed in the order of bytes.

Main results:

- Theorem `bytes_lt_iff`: the order of texts is the order of their bytes.
- Definition `NameSet.Increasing` says that the names of a set increase strictly in this order,
  theorem `NameSet.increasing_ofList` that those of every set made from a list do, and theorem
  `NameSet.Increasing.ext` that such sets are equal if they have the same names.
-/

namespace SdkHeaders.Text

/-! ## Encoded texts -/

/-- The bytes that encode a text. -/
def bytes (s : String) : List UInt8 :=
  s.toByteArray.data.toList

/-- A text is encoded character by character. -/
theorem bytes_eq (s : String) : bytes s = s.toList.flatMap String.utf8EncodeChar := by
  have h : s.toByteArray = s.toList.utf8Encode := by
    rw [← String.toByteArray_ofList, String.ofList_toList]
  rw [bytes, h, List.utf8Encode, List.data_toByteArray]

/-- The order of two numbers is that of what stands in front of their last six bits and, where
this is equal, that of these bits. -/
theorem lt_iff_sextet (m n k : Nat) :
    m / k < n / k ↔ m / (k * 64) < n / (k * 64) ∨
      m / (k * 64) = n / (k * 64) ∧ m / k % 64 < n / k % 64 := by
  rw [← Nat.div_div_eq_div_mul, ← Nat.div_div_eq_div_mul]
  omega

/-- A smaller character has a smaller encoding, whatever follows. -/
theorem utf8EncodeChar_append_lt {c d : Char} (h : c < d) (u v : List UInt8) :
    String.utf8EncodeChar c ++ u < String.utf8EncodeChar d ++ v := by
  have hlt : c.val.toNat < d.val.toNat := h
  have hd : d.val.toNat < 0x110000 := by
    have hvalid := d.valid
    unfold UInt32.isValidChar Nat.isValidChar at hvalid
    omega
  unfold String.utf8EncodeChar
  generalize c.val.toNat = m at *
  generalize d.val.toNat = n at *
  have hlast := lt_iff_sextet m n 1
  have hthird := lt_iff_sextet m n 64
  have hsecond := lt_iff_sextet m n 4096
  simp only [Nat.div_one, Nat.reduceMul] at hlast hthird hsecond
  have hfirst : ∀ k < 0x110000, (k / 262144 % 8 + 240) % 256 = k / 262144 + 240 := by omega
  have hnext : ∀ k, (k % 64 + 128) % 256 = k % 64 + 128 := by omega
  simp only
  -- encodings of different lengths already differ in their first bytes
  split_ifs <;>
    simp only [List.cons_append, List.nil_append, List.cons_lt_cons_iff, UInt8.lt_iff_toNat_lt,
      ← UInt8.toNat_inj, UInt8.toNat_ofNat', Nat.reducePow, hnext, hfirst m (by omega),
      hfirst n hd] <;>
    omega

/-- A smaller list of characters has a smaller encoding. -/
theorem flatMap_utf8EncodeChar_lt {cs ds : List Char} (h : cs < ds) :
    cs.flatMap String.utf8EncodeChar < ds.flatMap String.utf8EncodeChar := by
  induction ds generalizing cs with
  | nil => exact absurd h (List.not_lt_nil cs)
  | cons d ds ih =>
      cases cs with
      | nil =>
          obtain ⟨first, rest, hencoded⟩ :=
            List.exists_cons_of_ne_nil (String.utf8EncodeChar_ne_nil (c := d))
          rw [List.flatMap_cons, hencoded]
          exact List.nil_lt_cons _ _
      | cons c cs =>
          rw [List.flatMap_cons, List.flatMap_cons]
          rcases List.cons_lt_cons_iff.mp h with hlt | ⟨rfl, hrest⟩
          · exact utf8EncodeChar_append_lt hlt _ _
          · exact List.append_left_lt (ih hrest)

/-- The order of texts is the order of their bytes. -/
theorem bytes_lt_iff {s t : String} : bytes s < bytes t ↔ s < t := by
  have hmono : ∀ {s t : String}, s < t → bytes s < bytes t := by
    intro s t h
    rw [bytes_eq, bytes_eq]
    exact flatMap_utf8EncodeChar_lt h
  constructor
  · intro h
    by_cases hlt : s < t
    · exact hlt
    by_cases hgt : t < s
    · exact absurd (hmono hgt) (List.lt_asymm h)
    · rw [NameSet.eq_of_not_lt hlt hgt] at h
      exact absurd h (List.lt_irrefl _)
  · exact hmono

/-! ## Sets of names -/

namespace NameSet

/-- The names of the set increase strictly in the order of their bytes. -/
def Increasing (set : NameSet) : Prop :=
  set.toList.Pairwise fun a b => bytes a < bytes b

variable {set other : NameSet}

theorem increasing_iff : set.Increasing ↔ set.toList.Pairwise (· < ·) := by
  simp only [Increasing, bytes_lt_iff]

theorem increasing_empty : empty.Increasing := List.Pairwise.nil

/-- A name is inserted at its place in the order. -/
theorem Increasing.insert (h : set.Increasing) (name : String) : (set.insert name).Increasing :=
  increasing_iff.mpr (sorted_insert (increasing_iff.mp h))

/-- The names of a set that is made from a list increase strictly. -/
theorem increasing_ofList (names : List String) : (ofList names).Increasing := by
  have hall : ∀ set : NameSet, set.Increasing → (set.insertAll names).Increasing := by
    induction names with
    | nil => exact fun _ h => h
    | cons name rest ih => exact fun set h => ih _ (h.insert name)
  exact hall empty increasing_empty

/-- No name is listed twice. -/
theorem Increasing.nodup (h : set.Increasing) : set.toList.Nodup :=
  (increasing_iff.mp h).imp String.ne_of_lt

/-- Sets whose names increase strictly are equal if they have the same names. -/
theorem Increasing.ext (h : set.Increasing) (h' : other.Increasing)
    (hmem : ∀ x, x ∈ set.toList ↔ x ∈ other.toList) : set = other := by
  have hperm : set.toList.Perm other.toList :=
    (List.perm_ext_iff_of_nodup h.nodup h'.nodup).mpr hmem
  have hlist : set.toList = other.toList :=
    hperm.eq_of_pairwise (fun a b _ _ hab hba => absurd hba (String.lt_asymm hab))
      (increasing_iff.mp h) (increasing_iff.mp h')
  cases set
  cases other
  exact congrArg mk hlist

end NameSet

end SdkHeaders.Text
