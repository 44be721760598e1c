import SdkHeaders.Model.Source
import Mathlib.Data.List.Basic

/-!
# Quoted names in a text

Where a name stands between double quotes in a text, and which of these places a search from left to
right finds.

Main results:

- Definition `Source.QuotedAt` says that a quoted name starts at an offset.
- Theorems `Source.quotedAt_of_mem`, `Source.pairwise_quotedOccurrences` and
  `Source.exists_occurrence`: the places found are such places, do not overlap, and leave out only
  places that overlap an earlier one that is found.
- Theorems `Source.le_of_quotedAt` and `Source.exists_next_of_quotedAt`: the first place found is
  the leftmost one, and each further place is the leftmost one behind the place before.
- Structure `Source.Covers` says that a range covers the bytes of a quoted name, and theorem
  `Source.QuotedAt.covers` that the range behind the quote does.
-/

namespace SdkHeaders.Source

/-! ## Sizes -/

@[simp] theorem byteSize_nil : byteSize [] = 0 := rfl

@[simp] theorem byteSize_cons (c : Char) (cs : List Char) :
    byteSize (c :: cs) = c.utf8Size + byteSize cs := rfl

@[simp] theorem byteSize_append (cs ds : List Char) :
    byteSize (cs ++ ds) = byteSize cs + byteSize ds := by
  induction cs with
  | nil => simp
  | cons c rest ih => rw [List.cons_append, byteSize_cons, byteSize_cons, ih, Nat.add_assoc]

theorem byteSize_pos_iff {cs : List Char} : 0 < byteSize cs ↔ cs ≠ [] := by
  cases cs with
  | nil => simp
  | cons c rest => exact iff_of_true (Nat.add_pos_left c.utf8Size_pos _) (List.cons_ne_nil c rest)

/-- Of two starts of a text, the one that takes less bytes is the shorter one. -/
theorem byteSize_lt_iff {a b c d : List Char} (h : a ++ b = c ++ d) :
    byteSize a < byteSize c ↔ a.length < c.length := by
  rcases List.append_eq_append_iff.mp h with ⟨more, rfl, -⟩ | ⟨more, rfl, -⟩
  · rw [byteSize_append, List.length_append, Nat.lt_add_right_iff_pos, Nat.lt_add_right_iff_pos,
      byteSize_pos_iff, List.length_pos_iff]
  · rw [byteSize_append, List.length_append]
    constructor <;> intro h <;> omega

/-- The size of a text is that of its characters. -/
theorem byteSize_toList (s : String) : byteSize s.toList = s.utf8ByteSize := by
  have hchars : ∀ cs : List Char, byteSize cs = (String.ofList cs).utf8ByteSize := by
    intro cs
    induction cs with
    | nil => rfl
    | cons c rest ih =>
        rw [byteSize_cons, ih, String.ofList_cons, String.utf8ByteSize_append,
          String.utf8ByteSize_singleton]
  rw [hchars, String.ofList_toList]

/-- A quoted name takes two bytes more than the name. -/
theorem byteSize_quoted (name : String) :
    byteSize (quoted name.toList) = name.utf8ByteSize + 2 := by
  have hquote : '"'.utf8Size = 1 := by decide
  rw [quoted, List.cons_append, byteSize_cons, byteSize_append, byteSize_toList, byteSize_cons,
    byteSize_nil, hquote]
  omega

/-! ## The search -/

section Search

variable {pattern : List Char}

/-- Every offset found is that of the pattern, and lies behind the characters passed over. -/
theorem exists_split_of_mem {skip offset r : Nat} {cs : List Char}
    (h : r ∈ occurrencesFrom pattern skip offset cs) :
    ∃ before after, cs = before ++ pattern ++ after ∧ r = offset + byteSize before ∧
      skip ≤ before.length := by
  induction cs generalizing skip offset with
  | nil => cases h
  | cons c rest ih =>
      -- what is found in the rest stands one character further
      have hrest : ∀ {k}, r ∈ occurrencesFrom pattern k (offset + c.utf8Size) rest →
          ∃ before after, c :: rest = before ++ pattern ++ after ∧
            r = offset + byteSize before ∧ k + 1 ≤ before.length := by
        intro k hk
        obtain ⟨before, after, hsplit, hr, hlength⟩ := ih hk
        refine ⟨c :: before, after, by rw [hsplit]; rfl, ?_, Nat.succ_le_succ hlength⟩
        rw [hr, byteSize_cons, Nat.add_assoc]
      unfold occurrencesFrom at h
      cases skip with
      | succ k => exact hrest h
      | zero =>
          by_cases hprefix : pattern.isPrefixOf (c :: rest) = true
          · simp only [if_pos hprefix] at h
            rcases List.mem_cons.mp h with rfl | h
            · obtain ⟨after, hafter⟩ := List.isPrefixOf_iff_prefix.mp hprefix
              exact ⟨[], after, hafter.symm, rfl, Nat.le_refl 0⟩
            · obtain ⟨before, after, hsplit, hr, -⟩ := hrest h
              exact ⟨before, after, hsplit, hr, Nat.zero_le _⟩
          · simp only [if_neg hprefix] at h
            obtain ⟨before, after, hsplit, hr, -⟩ := hrest h
            exact ⟨before, after, hsplit, hr, Nat.zero_le _⟩

/-- The occurrences found do not overlap. -/
theorem pairwise_occurrencesFrom (skip offset : Nat) (cs : List Char) :
    (occurrencesFrom pattern skip offset cs).Pairwise fun r s => r + byteSize pattern ≤ s := by
  induction cs generalizing skip offset with
  | nil => exact List.Pairwise.nil
  | cons c rest ih =>
      unfold occurrencesFrom
      cases skip with
      | succ k => exact ih k _
      | zero =>
          by_cases hprefix : pattern.isPrefixOf (c :: rest) = true
          · simp only [if_pos hprefix]
            refine List.pairwise_cons.mpr ⟨?_, ih _ _⟩
            intro s hs
            obtain ⟨before, after, hsplit, rfl, hlength⟩ := exists_split_of_mem hs
            obtain ⟨more, hmore⟩ := List.isPrefixOf_iff_prefix.mp hprefix
            have hparts : pattern ++ more = (c :: before) ++ (pattern ++ after) := by
              rw [hmore, hsplit, List.append_assoc, List.cons_append]
            have hsize := mt (byteSize_lt_iff hparts.symm).mp (by rw [List.length_cons]; omega)
            rw [byteSize_cons] at hsize
            omega
          · simp only [if_neg hprefix]
            exact ih 0 _

/-- Every occurrence behind the characters passed over is found, or overlaps an earlier one that
is. -/
theorem exists_mem_occurrencesFrom (hpattern : pattern ≠ []) {skip : Nat} (offset : Nat)
    {before : List Char} (hskip : skip ≤ before.length) (after : List Char) :
    ∃ r ∈ occurrencesFrom pattern skip offset (before ++ pattern ++ after),
      r ≤ offset + byteSize before ∧ offset + byteSize before < r + byteSize pattern := by
  induction before generalizing skip offset with
  | nil =>
      obtain rfl : skip = 0 := Nat.le_zero.mp hskip
      obtain ⟨c, rest, hcs⟩ := List.exists_cons_of_ne_nil
        (List.append_ne_nil_of_left_ne_nil hpattern after)
      have hprefix : pattern.isPrefixOf (c :: rest) = true :=
        List.isPrefixOf_iff_prefix.mpr (hcs ▸ List.prefix_append pattern after)
      rw [List.nil_append, hcs, occurrencesFrom.eq_def]
      simp only [if_pos hprefix]
      exact ⟨offset, List.mem_cons_self, Nat.le_refl offset,
        Nat.lt_add_of_pos_right (byteSize_pos_iff.mpr hpattern)⟩
  | cons c before ih =>
      rw [List.cons_append, List.cons_append, byteSize_cons, ← Nat.add_assoc,
        occurrencesFrom.eq_def]
      cases skip with
      | succ k => exact ih _ (Nat.le_of_succ_le_succ hskip)
      | zero =>
          by_cases hprefix : pattern.isPrefixOf (c :: (before ++ pattern ++ after)) = true
          · simp only [if_pos hprefix]
            by_cases hlength : pattern.length - 1 ≤ before.length
            · obtain ⟨r, hr, hbounds⟩ := ih (offset + c.utf8Size) hlength
              exact ⟨r, List.mem_cons_of_mem _ hr, hbounds⟩
            · -- the occurrence at the start reaches beyond the one looked for
              obtain ⟨more, hmore⟩ := List.isPrefixOf_iff_prefix.mp hprefix
              have hparts : (c :: before) ++ (pattern ++ after) = pattern ++ more := by
                rw [hmore, List.append_assoc, List.cons_append]
              have hsize := (byteSize_lt_iff hparts).mpr (by rw [List.length_cons]; omega)
              rw [byteSize_cons] at hsize
              exact ⟨offset, List.mem_cons_self, by omega, by omega⟩
          · simp only [if_neg hprefix]
            exact ih _ (Nat.zero_le _)

end Search

/-! ## Places of a quoted name -/

/-- A name between double quotes, with the first quote at the given offset. -/
def QuotedAt (text name : String) (offset : Nat) : Prop :=
  ∃ before after, text = before ++ "\"" ++ name ++ "\"" ++ after ∧ offset = before.utf8ByteSize

section Places

variable {text name : String}

theorem toList_eq_quoted (before after : String) :
    (before ++ "\"" ++ name ++ "\"" ++ after).toList =
      before.toList ++ quoted name.toList ++ after.toList := by
  simp [quoted]

/-- Every place found is one of the quoted name. -/
theorem quotedAt_of_mem {r : Nat} (h : r ∈ quotedOccurrences text name) :
    QuotedAt text name r := by
  obtain ⟨before, after, hsplit, rfl, -⟩ := exists_split_of_mem h
  refine ⟨String.ofList before, String.ofList after, String.toList_inj.mp ?_, ?_⟩
  · rw [toList_eq_quoted, String.toList_ofList, String.toList_ofList, hsplit]
  · rw [Nat.zero_add, ← byteSize_toList, String.toList_ofList]

/-- The places found do not overlap. -/
theorem pairwise_quotedOccurrences (text name : String) :
    (quotedOccurrences text name).Pairwise fun r s => r + (name.utf8ByteSize + 2) ≤ s := by
  rw [← byteSize_quoted]
  exact pairwise_occurrencesFrom 0 0 text.toList

/-- Every place of the quoted name is found, or overlaps an earlier one that is. -/
theorem exists_occurrence {r : Nat} (h : QuotedAt text name r) :
    ∃ s ∈ quotedOccurrences text name, s ≤ r ∧ r < s + (name.utf8ByteSize + 2) := by
  obtain ⟨before, after, rfl, rfl⟩ := h
  have hpattern : quoted name.toList ≠ [] := List.cons_ne_nil _ _
  obtain ⟨s, hs, hle, hlt⟩ :=
    exists_mem_occurrencesFrom hpattern 0 (Nat.zero_le before.toList.length) after.toList
  rw [byteSize_quoted] at hlt
  rw [Nat.zero_add, byteSize_toList] at hle hlt
  refine ⟨s, ?_, hle, hlt⟩
  rwa [quotedOccurrences, toList_eq_quoted]

section Order

variable {n first r : Nat}

/-- The places found are in order. -/
theorem add_le_of_lt {m second : Nat} (hfirst : (quotedOccurrences text name)[n]? = some first)
    (hsecond : (quotedOccurrences text name)[m]? = some second) (hlt : n < m) :
    first + (name.utf8ByteSize + 2) ≤ second := by
  obtain ⟨hn, rfl⟩ := List.getElem?_eq_some_iff.mp hfirst
  obtain ⟨hm, rfl⟩ := List.getElem?_eq_some_iff.mp hsecond
  exact List.pairwise_iff_getElem.mp (pairwise_quotedOccurrences text name) n m hn hm hlt

/-- The first place found is the leftmost one. -/
theorem le_of_quotedAt (h : QuotedAt text name r) :
    ∃ leftmost, (quotedOccurrences text name)[0]? = some leftmost ∧ leftmost ≤ r := by
  obtain ⟨s, hs, hle, -⟩ := exists_occurrence h
  obtain ⟨k, hk⟩ := List.mem_iff_getElem?.mp hs
  cases k with
  | zero => exact ⟨s, hk, hle⟩
  | succ k =>
      have hlength := (List.getElem?_eq_some_iff.mp hk).1
      have hzero := List.getElem?_eq_getElem (Nat.zero_lt_of_lt hlength)
      have hstep := add_le_of_lt hzero hk (Nat.succ_pos k)
      exact ⟨_, hzero, by omega⟩

/-- Behind a place found, the next one found is the leftmost one. -/
theorem exists_next_of_quotedAt (hfirst : (quotedOccurrences text name)[n]? = some first)
    (h : QuotedAt text name r) (hbehind : first + (name.utf8ByteSize + 2) ≤ r) :
    ∃ next, (quotedOccurrences text name)[n + 1]? = some next ∧ next ≤ r := by
  obtain ⟨s, hs, hle, hlt⟩ := exists_occurrence h
  obtain ⟨k, hk⟩ := List.mem_iff_getElem?.mp hs
  rcases Nat.lt_trichotomy k (n + 1) with hbefore | rfl | hafter
  · -- a place found that overlaps this one cannot stand before the end of the first
    have hk' : s ≤ first := by
      rcases Nat.lt_succ_iff_lt_or_eq.mp hbefore with hkn | rfl
      · exact Nat.le_of_add_right_le (add_le_of_lt hk hfirst hkn)
      · exact Nat.le_of_eq (Option.some.inj (hk.symm.trans hfirst))
    omega
  · exact ⟨s, hk, hle⟩
  · have hlength := (List.getElem?_eq_some_iff.mp hk).1
    have hnext := List.getElem?_eq_getElem (Nat.lt_trans hafter hlength)
    have hstep := add_le_of_lt hnext hk hafter
    exact ⟨_, hnext, by omega⟩

end Order

/-! ## Located names -/

/-- A name is located where its place is found. -/
theorem findSpan_eq_some_iff {n : Nat} {span : Span} :
    findSpan text name n = some span ↔
      name ≠ "" ∧ ∃ offset, (quotedOccurrences text name)[n]? = some offset ∧
        span = ⟨offset + 1, name.utf8ByteSize⟩ := by
  unfold findSpan
  by_cases hname : name = ""
  · simp [hname]
  · rw [if_neg hname, Option.map_eq_some_iff, byteSize_toList]
    simp only [ne_eq, hname, not_false_eq_true, true_and, eq_comm]

/-- A range of a text covers a name in double quotes, byte by byte. -/
structure Covers (text name : String) (span : Span) : Prop where
  inside : span.offset + span.length ≤ text.utf8ByteSize
  starts : String.Pos.Raw.IsValid text ⟨span.offset⟩
  stops : String.Pos.Raw.IsValid text ⟨span.offset + span.length⟩
  bytes : text.toByteArray.extract span.offset (span.offset + span.length) = name.toByteArray
  preceded : 0 < span.offset
  quotes : text.toByteArray.extract (span.offset - 1) (span.offset + span.length + 1) =
    ("\"" ++ name ++ "\"").toByteArray

/-- The bytes of a middle part of a text. -/
theorem extract_toByteArray (before middle after : String) :
    (before ++ middle ++ after).toByteArray.extract before.utf8ByteSize
      (before.utf8ByteSize + middle.utf8ByteSize) = middle.toByteArray := by
  rw [String.append_assoc, String.toByteArray_append, String.toByteArray_append]
  exact (ByteArray.extract_append_size_add (i := 0)).trans (ByteArray.extract_append_eq_left rfl)

/-- The range behind the first quote covers the name. -/
theorem QuotedAt.covers {offset : Nat} (h : QuotedAt text name offset) :
    Covers text name ⟨offset + 1, name.utf8ByteSize⟩ := by
  obtain ⟨before, after, rfl, rfl⟩ := h
  have hquote : "\"".utf8ByteSize = 1 := by decide
  have hopened : (before ++ "\"").utf8ByteSize = before.utf8ByteSize + 1 := by
    rw [String.utf8ByteSize_append, hquote]
  have hname : before ++ "\"" ++ name ++ "\"" ++ after =
      (before ++ "\"") ++ name ++ ("\"" ++ after) := by simp [String.append_assoc]
  have hquoted : before ++ "\"" ++ name ++ "\"" ++ after =
      before ++ ("\"" ++ name ++ "\"") ++ after := by simp [String.append_assoc]
  refine ⟨?_, ?_, ?_, ?_, Nat.succ_pos _, ?_⟩
  · simp only [hname, String.utf8ByteSize_append, hquote]
    omega
  · refine String.Pos.Raw.isValid_iff_exists_append.mpr
      ⟨before ++ "\"", name ++ ("\"" ++ after), by simp [String.append_assoc], ?_⟩
    exact congrArg String.Pos.Raw.mk hopened.symm
  · refine String.Pos.Raw.isValid_iff_exists_append.mpr
      ⟨before ++ "\"" ++ name, "\"" ++ after, by simp [String.append_assoc], ?_⟩
    refine congrArg String.Pos.Raw.mk ?_
    rw [String.utf8ByteSize_append, hopened]
  · rw [hname]
    have := extract_toByteArray (before ++ "\"") name ("\"" ++ after)
    rwa [hopened] at this
  · have hend : before.utf8ByteSize + 1 + name.utf8ByteSize + 1 =
        before.utf8ByteSize + ("\"" ++ name ++ "\"").utf8ByteSize := by
      simp only [String.utf8ByteSize_append, hquote]
      omega
    rw [hquoted]
    change ByteArray.extract _ before.utf8ByteSize
      (before.utf8ByteSize + 1 + name.utf8ByteSize + 1) = _
    rw [hend]
    exact extract_toByteArray before ("\"" ++ name ++ "\"") after

end Places

end SdkHeaders.Source
