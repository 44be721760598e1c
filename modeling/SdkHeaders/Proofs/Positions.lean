import Mathlib.Data.List.DropRight
import Mathlib.Order.Monotone.Defs
import SdkHeaders.Model.Fault
import SdkHeaders.Proofs.ByteOrder
import SdkHeaders.Proofs.LayoutLines
import SdkHeaders.Proofs.QuotedNames

/-!
# Positions in a text

Lines and columns of the bytes of a text, and how they are converted back to offsets.  A byte
belongs to the line that is reached by the line feeds in front of it, so that a line feed is the
last byte of its line.  The end of a text is no byte: behind a line feed it is numbered as a line
that the text does not have.

Main results:

- Definition `Source.positionAt` numbers the offsets of a text.
- Structure `Source.LineRange` says which bytes a line consists of, and theorem
  `Source.exists_lineRange` that each line of a text has such a range, in which its columns are
  converted.
- Theorem `Source.offsetOf_spec`: converting a position yields its offset, and other columns are
  converted into the range of their line.
- Theorem `SourceFile.labelled_malformedAtOffset_iff`: a fault that is reported at an offset is
  labelled, except at the end of a text behind a line feed.
-/

namespace SdkHeaders

/-! ## Line feeds among bytes -/

namespace Text

/-- The byte of a line feed. -/
def lineFeed : UInt8 := 10

/-- The bytes that encode a list of characters. -/
def encoded (cs : List Char) : List UInt8 :=
  cs.flatMap String.utf8EncodeChar

@[simp] theorem encoded_append (cs ds : List Char) :
    encoded (cs ++ ds) = encoded cs ++ encoded ds :=
  List.flatMap_append

theorem encoded_lineFeed : encoded ['\n'] = [lineFeed] := by
  decide

theorem length_encoded (cs : List Char) : (encoded cs).length = Source.byteSize cs := by
  induction cs with
  | nil => rfl
  | cons c rest ih =>
      rw [Source.byteSize_cons, ← ih, ← String.length_utf8EncodeChar, ← List.length_append]
      rfl

/-- Only a line feed is encoded with the byte of a line feed. -/
theorem lineFeed_not_mem_utf8EncodeChar {c : Char} (h : c ≠ '\n') :
    lineFeed ∉ String.utf8EncodeChar c := by
  have hcode : c.val.toNat ≠ 10 := fun heq => h (Char.ext (UInt32.toNat_inj.mp heq))
  unfold String.utf8EncodeChar lineFeed
  generalize c.val.toNat = code at hcode
  simp only
  split_ifs <;> simp [← UInt8.toNat_inj] <;> omega

theorem lineFeed_not_mem_encoded {cs : List Char} (h : '\n' ∉ cs) : lineFeed ∉ encoded cs := by
  intro hmem
  obtain ⟨c, hc, hbyte⟩ := List.mem_flatMap.mp hmem
  exact lineFeed_not_mem_utf8EncodeChar (ne_of_mem_of_not_mem hc h) hbyte

end Text

namespace Source

open Text (lineFeed encoded)

/-! ## Positions -/

/-- A place in a text. -/
structure Position where
  /-- The number of its line, counted from one. -/
  line : Nat
  /-- The number of bytes between the start of its line and the place. -/
  depth : Nat
  deriving DecidableEq, Repr

/-- The place behind some bytes: each line feed among them starts another line. -/
def positionBehind (bytes : List UInt8) : Position where
  line := 1 + bytes.count lineFeed
  depth := (bytes.rtakeWhile (· != lineFeed)).length

/-- The place of an offset in a text. -/
def positionAt (text : String) (offset : Nat) : Position :=
  positionBehind ((Text.bytes text).take offset)

/-- What one more byte does to a place. -/
theorem positionBehind_concat (bytes : List UInt8) (b : UInt8) :
    positionBehind (bytes ++ [b]) =
      if b = lineFeed then ⟨(positionBehind bytes).line + 1, 0⟩
      else ⟨(positionBehind bytes).line, (positionBehind bytes).depth + 1⟩ := by
  unfold positionBehind
  rw [List.count_append, List.rtakeWhile_concat]
  by_cases hb : b = lineFeed
  · simp [hb, Nat.add_assoc]
  · simp [hb]

/-- Bytes without line feed stay in the line. -/
theorem positionBehind_append_of_not_mem {word : List UInt8} (h : lineFeed ∉ word)
    (bytes : List UInt8) :
    positionBehind (bytes ++ word) =
      ⟨(positionBehind bytes).line, (positionBehind bytes).depth + word.length⟩ := by
  induction word using List.reverseRecOn with
  | nil => rw [List.append_nil]; rfl
  | append_singleton word b ih =>
      rw [List.mem_append, List.mem_singleton, not_or] at h
      rw [← List.append_assoc, positionBehind_concat, if_neg (Ne.symm h.2), ih h.1,
        List.length_append, Nat.add_assoc]
      rfl

/-- Behind a line feed the depth is counted anew. -/
theorem positionBehind_append_lineFeed (before after : List UInt8) :
    positionBehind (before ++ [lineFeed] ++ after) =
      ⟨(positionBehind before).line + (positionBehind after).line,
        (positionBehind after).depth⟩ := by
  induction after using List.reverseRecOn with
  | nil => rw [List.append_nil, positionBehind_concat, if_pos rfl]; rfl
  | append_singleton after b ih =>
      rw [← List.append_assoc, positionBehind_concat, ih, positionBehind_concat]
      split <;> rfl

theorem line_positionAt_mono (text : String) {m n : Nat} (h : m ≤ n) :
    (positionAt text m).line ≤ (positionAt text n).line := by
  have htake : (Text.bytes text).take m <+: (Text.bytes text).take n :=
    List.take_prefix_take_left h
  exact Nat.add_le_add_left (htake.sublist.count_le lineFeed) 1

/-! ## Lines with their line feeds -/

/-- A line feed ends a line. -/
theorem brokenLines_append {body : List Char} (h : '\n' ∉ body) (rest : List Char) :
    brokenLines (body ++ '\n' :: rest) = (body ++ ['\n']) :: brokenLines rest := by
  induction body with
  | nil => rfl
  | cons c cs ih =>
      rw [List.mem_cons, not_or] at h
      rw [List.cons_append, brokenLines, ih h.2]
      · rfl
      · exact Ne.symm h.1

theorem brokenLines_of_not_mem {cs : List Char} (hne : cs ≠ []) (h : '\n' ∉ cs) :
    brokenLines cs = [cs] := by
  induction cs with
  | nil => exact absurd rfl hne
  | cons c rest ih =>
      rw [List.mem_cons, not_or] at h
      rw [brokenLines]
      · by_cases hrest : rest = []
        · rw [hrest]
          rfl
        · rw [ih hrest h.2]
      · exact Ne.symm h.1

/-- Texts are built from their last line to the first one. -/
theorem line_induction {motive : List Char → Prop} (nil : motive [])
    (last : ∀ cs, cs ≠ [] → '\n' ∉ cs → motive cs)
    (ended : ∀ body rest, '\n' ∉ body → motive rest → motive (body ++ '\n' :: rest))
    (cs : List Char) : motive cs := by
  by_cases h : '\n' ∈ cs
  · obtain ⟨body, rest, heq, hbody⟩ := List.eq_append_cons_of_mem h
    rw [heq]
    exact ended body rest hbody (line_induction nil last ended rest)
  · by_cases hne : cs = []
    · rw [hne]
      exact nil
    · exact last cs hne h
termination_by cs.length
decreasing_by
  rw [heq, List.length_append, List.length_cons]
  omega

/-- The lines are those of the text, whether or not they are kept with their line breaks. -/
theorem length_brokenLines (cs : List Char) :
    (brokenLines cs).length = (Text.lineList cs).length := by
  induction cs using line_induction with
  | nil => rfl
  | last cs hne hfree => rw [brokenLines_of_not_mem hne hfree, Text.lineList_of_not_mem hne hfree]
  | ended body rest hbody ih =>
      rw [brokenLines_append hbody, Text.lineList_append hbody, List.length_cons, ih,
        List.length_cons]

theorem total_cons (size : Nat) (rest : List Nat) : total (size :: rest) = size + total rest := rfl

theorem total_byteSize_brokenLines (cs : List Char) :
    total ((brokenLines cs).map byteSize) = byteSize cs := by
  induction cs using line_induction with
  | nil => rfl
  | last cs hne hfree => rw [brokenLines_of_not_mem hne hfree]; rfl
  | ended body rest hbody ih =>
      have hsplit : body ++ '\n' :: rest = (body ++ ['\n']) ++ rest := by simp
      rw [brokenLines_append hbody, List.map_cons, total_cons, ih, hsplit,
        byteSize_append (body ++ ['\n'])]

/-- What stands in front of a line, and what the line consists of. -/
theorem exists_split_of_line {cs line : List Char} {n : Nat}
    (h : (brokenLines cs)[n]? = some line) :
    ∃ before body after, cs = before ++ line ++ after ∧
      byteSize before = total (((brokenLines cs).map byteSize).take n) ∧
      positionBehind (encoded before) = ⟨n + 1, 0⟩ ∧ '\n' ∉ body ∧
        (line = body ++ ['\n'] ∨ line = body ∧ body ≠ []) := by
  induction cs using line_induction generalizing n with
  | nil => cases h
  | last cs hne hfree =>
      rw [brokenLines_of_not_mem hne hfree] at h ⊢
      cases n with
      | zero =>
          obtain rfl := Option.some.inj h
          exact ⟨[], cs, [], by simp, rfl, rfl, hfree, .inr ⟨rfl, hne⟩⟩
      | succ n => cases h
  | ended body rest hbody ih =>
      rw [brokenLines_append hbody] at h ⊢
      cases n with
      | zero =>
          obtain rfl := Option.some.inj h
          exact ⟨[], body, rest, by simp, rfl, rfl, hbody, .inl rfl⟩
      | succ n =>
          obtain ⟨before, other, after, hsplit, hsize, hposition, hother⟩ := ih h
          refine ⟨body ++ ['\n'] ++ before, other, after, ?_, ?_, ?_, hother⟩
          · simp [hsplit]
          · rw [byteSize_append, hsize, List.map_cons, List.take_succ_cons, total_cons]
          · have hline : (positionBehind (encoded body)).line = 1 := by
              have hword := positionBehind_append_of_not_mem
                (Text.lineFeed_not_mem_encoded hbody) []
              rw [List.nil_append] at hword
              rw [hword]
              rfl
            rw [Text.encoded_append, Text.encoded_append, Text.encoded_lineFeed,
              positionBehind_append_lineFeed, hposition, hline, Nat.add_comm 1]

/-! ## Ranges of lines -/

/-- The offset of the first byte of a line, counted from zero. -/
def lineStart (text : String) (n : Nat) : Nat :=
  total (((brokenLines text.toList).map byteSize).take n)

/-- A line consists of the bytes from an offset up to another one: these are the bytes that are
numbered with the line, at their distances from its start. -/
structure LineRange (text : String) (line start finish : Nat) : Prop where
  start_lt : start < finish
  finish_le : finish ≤ text.utf8ByteSize
  line_iff : ∀ offset < text.utf8ByteSize,
    (positionAt text offset).line = line ↔ start ≤ offset ∧ offset < finish
  depth_eq : ∀ offset, start ≤ offset → offset < finish →
    start + (positionAt text offset).depth = offset

section Ranges

variable {text : String} {n : Nat} {line : List Char}

/-- The places of the bytes of a line. -/
theorem positionAt_of_line (h : (brokenLines text.toList)[n]? = some line) {k : Nat}
    (hk : k < byteSize line) : positionAt text (lineStart text n + k) = ⟨n + 1, k⟩ := by
  obtain ⟨before, body, after, hsplit, hsize, hposition, hbody, hline⟩ := exists_split_of_line h
  have hfree : lineFeed ∉ (encoded line).take k := by
    rcases hline with rfl | ⟨rfl, -⟩
    · have hle : k ≤ (encoded body).length := by
        have hfeed : byteSize ['\n'] = 1 := by decide
        rw [byteSize_append, hfeed] at hk
        rw [Text.length_encoded]
        omega
      rw [Text.encoded_append, List.take_append_of_le_length hle]
      exact fun hmem => Text.lineFeed_not_mem_encoded hbody (List.mem_of_mem_take hmem)
    · exact fun hmem => Text.lineFeed_not_mem_encoded hbody (List.mem_of_mem_take hmem)
  have htake : (Text.bytes text).take (lineStart text n + k) =
      encoded before ++ (encoded line).take k := by
    have hbytes : Text.bytes text = encoded before ++ (encoded line ++ encoded after) := by
      rw [Text.bytes_eq, ← List.append_assoc, ← Text.encoded_append, ← Text.encoded_append,
        ← hsplit]
      rfl
    have hstart : lineStart text n = (encoded before).length := by
      rw [Text.length_encoded, hsize]
      rfl
    rw [hbytes, hstart, List.take_length_add_append, List.take_append_of_le_length]
    rw [Text.length_encoded]
    exact Nat.le_of_lt hk
  rw [positionAt, htake, positionBehind_append_of_not_mem hfree, hposition, List.length_take,
    Text.length_encoded, Nat.min_eq_left (Nat.le_of_lt hk), Nat.zero_add]

theorem exists_index_of_lt_total {sizes : List Nat} {offset : Nat} (h : offset < total sizes) :
    ∃ n size, sizes[n]? = some size ∧
      ∃ k < size, offset = total (sizes.take n) + k := by
  induction sizes generalizing offset with
  | nil => cases h
  | cons size rest ih =>
      by_cases hfirst : offset < size
      · exact ⟨0, size, rfl, offset, hfirst, (Nat.zero_add offset).symm⟩
      · rw [total_cons] at h
        have hrest : offset - size < total rest := by omega
        obtain ⟨n, other, hother, k, hk, hoffset⟩ := ih hrest
        refine ⟨n + 1, other, hother, k, hk, ?_⟩
        rw [List.take_succ_cons, total_cons]
        omega

/-- Every byte belongs to a line. -/
theorem exists_line_of_lt {offset : Nat} (h : offset < text.utf8ByteSize) :
    ∃ n line, (brokenLines text.toList)[n]? = some line ∧
      ∃ k < byteSize line, offset = lineStart text n + k := by
  rw [← byteSize_toList, ← total_byteSize_brokenLines] at h
  obtain ⟨n, size, hsize, k, hk, hoffset⟩ := exists_index_of_lt_total h
  rw [List.getElem?_map, Option.map_eq_some_iff] at hsize
  obtain ⟨line, hline, rfl⟩ := hsize
  exact ⟨n, line, hline, k, hk, hoffset⟩

/-- The bytes of a line are those that are numbered with it. -/
theorem lineRange_of_line (h : (brokenLines text.toList)[n]? = some line) :
    LineRange text (n + 1) (lineStart text n) (lineStart text n + byteSize line) := by
  obtain ⟨before, body, after, hsplit, hsize, -, -, hbody⟩ := exists_split_of_line h
  constructor
  case start_lt =>
    apply Nat.lt_add_of_pos_right
    rw [byteSize_pos_iff]
    rcases hbody with rfl | ⟨rfl, hne⟩
    · exact List.append_ne_nil_of_right_ne_nil body (List.cons_ne_nil _ _)
    · exact hne
  case finish_le =>
    have hstart : lineStart text n = byteSize before := hsize.symm
    rw [← byteSize_toList, hsplit, byteSize_append, byteSize_append, hstart]
    exact Nat.le_add_right _ _
  case line_iff =>
    intro offset hoffset
    constructor
    · intro hnumber
      obtain ⟨m, other, hother, k, hk, rfl⟩ := exists_line_of_lt hoffset
      rw [positionAt_of_line hother hk] at hnumber
      obtain rfl : m = n := Nat.succ.inj hnumber
      obtain rfl : other = line := Option.some.inj (hother.symm.trans h)
      exact ⟨Nat.le_add_right _ _, Nat.add_lt_add_left hk _⟩
    · rintro ⟨hstart, hfinish⟩
      obtain ⟨k, rfl⟩ := Nat.exists_eq_add_of_le hstart
      rw [positionAt_of_line h (Nat.lt_of_add_lt_add_left hfinish)]
  case depth_eq =>
    intro offset hstart hfinish
    obtain ⟨k, rfl⟩ := Nat.exists_eq_add_of_le hstart
    rw [positionAt_of_line h (Nat.lt_of_add_lt_add_left hfinish)]

theorem length_lines (text : String) :
    (brokenLines text.toList).length = (Text.lines text).length := by
  rw [length_brokenLines, Text.lines, List.length_map]

/-- Every line of a text has a range, and its columns are converted to the offsets in this range, up
to the offset behind its last byte. -/
theorem exists_lineRange {number : Nat} (hpos : number ≠ 0)
    (hle : number ≤ (Text.lines text).length) :
    ∃ start finish, LineRange text number start finish ∧
      ∀ column, offsetOf text number column = some (min (start + (column - 1)) finish) := by
  obtain ⟨n, rfl⟩ := Nat.exists_eq_succ_of_ne_zero hpos
  rw [← length_lines] at hle
  have hline := List.getElem?_eq_getElem hle
  refine ⟨_, _, lineRange_of_line hline, ?_⟩
  intro column
  have hsize : ((brokenLines text.toList).map byteSize)[n]? =
      some (byteSize (brokenLines text.toList)[n]) := by
    rw [List.getElem?_map, hline]
    rfl
  simp only [offsetOf, hsize, Option.map_some, Nat.add_min_add_left, lineStart]

/-- Every byte is numbered with a line that the text has. -/
theorem line_le_of_lt {offset : Nat} (h : offset < text.utf8ByteSize) :
    (positionAt text offset).line ≤ (Text.lines text).length := by
  obtain ⟨n, line, hline, k, hk, rfl⟩ := exists_line_of_lt h
  rw [positionAt_of_line hline hk, ← length_lines]
  exact (List.getElem?_eq_some_iff.mp hline).1

end Ranges

theorem line_positionAt_ne_zero (text : String) (offset : Nat) :
    (positionAt text offset).line ≠ 0 :=
  Nat.ne_of_gt (Nat.lt_add_right _ Nat.one_pos)

/-- Nothing is converted exactly if the line is not one of the text. -/
theorem offsetOf_eq_none_iff {text : String} {line column : Nat} :
    offsetOf text line column = none ↔ line = 0 ∨ (Text.lines text).length < line := by
  cases line with
  | zero => exact iff_of_true rfl (.inl rfl)
  | succ n =>
      simp only [offsetOf, Option.map_eq_none_iff, List.getElem?_eq_none_iff, List.length_map,
        length_lines, Nat.succ_ne_zero, false_or, Nat.lt_succ_iff]

/-- The place of a byte, with its column counted from one, is converted to the byte's offset. -/
theorem offsetOf_positionAt {text : String} {offset : Nat} (h : offset < text.utf8ByteSize) :
    offsetOf text (positionAt text offset).line (1 + (positionAt text offset).depth) =
      some offset := by
  obtain ⟨start, finish, hrange, hplace⟩ :=
    exists_lineRange (line_positionAt_ne_zero text offset) (line_le_of_lt h)
  obtain ⟨hstart, hfinish⟩ := (hrange.line_iff offset h).mp rfl
  rw [hplace, Nat.add_sub_cancel_left, hrange.depth_eq offset hstart hfinish,
    Nat.min_eq_left (Nat.le_of_lt hfinish)]

/-- Converting the place of a byte yields its offset.  Nothing is converted exactly if the line is
not one of the text, and otherwise the columns are converted, in order, to offsets between the start
and the end of the line. -/
theorem offsetOf_spec (text : String) :
    (∀ offset < text.utf8ByteSize,
      offsetOf text (positionAt text offset).line (1 + (positionAt text offset).depth) =
        some offset) ∧
      (∀ line column,
        offsetOf text line column = none ↔ line = 0 ∨ (Text.lines text).length < line) ∧
      ∀ line, line ≠ 0 → line ≤ (Text.lines text).length →
        ∃ start finish, LineRange text line start finish ∧
          ∃ place : Nat → Nat, Monotone place ∧
            ∀ column, offsetOf text line column = some (place column) ∧
              start ≤ place column ∧ place column ≤ finish := by
  refine ⟨fun _ h => offsetOf_positionAt h, fun _ _ => offsetOf_eq_none_iff, ?_⟩
  intro line hpos hle
  obtain ⟨start, finish, hrange, hplace⟩ := exists_lineRange hpos hle
  refine ⟨start, finish, hrange, fun column => min (start + (column - 1)) finish, ?_, ?_⟩
  · intro column other h
    dsimp only
    omega
  · intro column
    have hlt := hrange.start_lt
    exact ⟨hplace column, Nat.le_min.mpr ⟨Nat.le_add_right _ _, Nat.le_of_lt hlt⟩,
      Nat.min_le_right _ _⟩

/-- A text of two lines, of which the first one has a character of two bytes, with an empty line
between them. -/
def accentText : String := "\u00e9t\u00e9\n\nx"

theorem accentText_offsetOf :
    6 < accentText.utf8ByteSize ∧ positionAt accentText 6 = ⟨2, 0⟩ ∧
      offsetOf accentText 2 1 = some 6 ∧ 3 ≤ (Text.lines accentText).length ∧
      ∃ start finish, LineRange accentText 3 start finish ∧
        ∃ place : Nat → Nat, Monotone place ∧ offsetOf accentText 3 40 = some (place 40) ∧
          place 40 ≤ finish := by
  have hsize : 6 < accentText.utf8ByteSize := by decide
  have hplace : positionAt accentText 6 = ⟨2, 0⟩ := by decide +kernel
  have hlines : 3 ≤ (Text.lines accentText).length := by decide +kernel
  obtain ⟨hinverse, -, hranges⟩ := offsetOf_spec accentText
  have hoffset := hinverse 6 hsize
  rw [hplace] at hoffset
  obtain ⟨start, finish, hrange, place, hmono, hcolumns⟩ := hranges 3 (by decide) hlines
  exact ⟨hsize, hplace, hoffset, hlines, start, finish, hrange, place, hmono, (hcolumns 40).1,
    (hcolumns 40).2.2⟩

/-! ## The end of a text -/

/-- A text ends in a line feed exactly if its bytes do. -/
theorem bytes_eq_concat_lineFeed_iff {text : String} :
    (∃ before, Text.bytes text = before ++ [lineFeed]) ↔ ∃ before, text = before ++ "\n" := by
  constructor
  · rintro ⟨before, hbytes⟩
    rw [Text.bytes_eq] at hbytes
    rcases List.eq_nil_or_concat text.toList with hnil | ⟨cs, c, hcs⟩
    · rw [hnil] at hbytes
      simp at hbytes
    · rw [List.concat_eq_append] at hcs
      rw [hcs, List.flatMap_append, List.flatMap_singleton] at hbytes
      have hc : c = '\n' := by
        by_contra hne
        obtain ⟨first, last, hencoded⟩ :=
          (List.eq_nil_or_concat (String.utf8EncodeChar c)).resolve_left
            String.utf8EncodeChar_ne_nil
        rw [List.concat_eq_append] at hencoded
        rw [hencoded, ← List.append_assoc] at hbytes
        obtain ⟨-, hlast⟩ := List.append_inj' hbytes rfl
        apply Text.lineFeed_not_mem_utf8EncodeChar hne
        rw [hencoded, hlast]
        exact List.mem_append_right first (List.mem_singleton_self lineFeed)
      exact ⟨String.ofList cs, String.toList_inj.mp (by simp [hcs, hc])⟩
  · rintro ⟨before, rfl⟩
    refine ⟨Text.bytes before, ?_⟩
    rw [Text.bytes_eq, Text.bytes_eq, String.toList_append, List.flatMap_append]
    rfl

/-- The offset is the end of a text that ends in a line feed. -/
def BehindLastLine (text : String) (offset : Nat) : Prop :=
  offset = text.utf8ByteSize ∧ ∃ before, text = before ++ "\n"

section Reported

variable {text : String} {offset : Nat}

theorem length_bytes (text : String) : (Text.bytes text).length = text.utf8ByteSize := by
  rw [Text.bytes_eq, ← byteSize_toList]
  exact Text.length_encoded text.toList

/-- The byte that is reported for an offset: the one behind it where a line starts, and else the
one in front of it. -/
def reportedByte (text : String) (offset : Nat) : Nat :=
  if (positionAt text offset).depth = 0 then offset else offset - 1

/-- At a byte, the depth is converted without having been counted from one. -/
theorem offsetOf_depth_of_lt (h : offset < text.utf8ByteSize) :
    offsetOf text (positionAt text offset).line (positionAt text offset).depth =
      some (reportedByte text offset) := by
  obtain ⟨start, finish, hrange, hplace⟩ :=
    exists_lineRange (line_positionAt_ne_zero text offset) (line_le_of_lt h)
  obtain ⟨hstart, hfinish⟩ := (hrange.line_iff offset h).mp rfl
  have hdepth := hrange.depth_eq offset hstart hfinish
  rw [hplace, Option.some.injEq, reportedByte]
  split <;> omega

/-- Behind a last line feed begins a line that the text does not have. -/
theorem lines_length_le_of_last (h : text.utf8ByteSize = offset + 1) :
    (Text.lines text).length ≤ (positionAt text offset).line := by
  by_contra hlt
  have hle : (positionAt text offset).line + 1 ≤ (Text.lines text).length :=
    Nat.lt_of_not_le hlt
  obtain ⟨start, finish, hrange, -⟩ := exists_lineRange (Nat.succ_ne_zero _) hle
  have hstart := hrange.start_lt
  have hfinish := hrange.finish_le
  have hline := (hrange.line_iff start (by omega)).mpr ⟨Nat.le_refl start, hstart⟩
  have hbefore : start ≤ offset := by omega
  have hmono := line_positionAt_mono text hbefore
  omega

/-- The end of a text is placed by its last byte. -/
theorem positionAt_end (hne : text ≠ "") :
    ∃ last : UInt8, (BehindLastLine text text.utf8ByteSize ↔ last = lineFeed) ∧
      ∃ n, text.utf8ByteSize = n + 1 ∧
        positionAt text (n + 1) =
          if last = lineFeed then ⟨(positionAt text n).line + 1, 0⟩
          else ⟨(positionAt text n).line, (positionAt text n).depth + 1⟩ := by
  obtain ⟨init, last, hbytes⟩ := (List.eq_nil_or_concat (Text.bytes text)).resolve_left (by
    intro hnil
    have hlength := length_bytes text
    rw [hnil] at hlength
    exact hne (String.utf8ByteSize_eq_zero_iff.mp hlength.symm))
  rw [List.concat_eq_append] at hbytes
  have hsize : text.utf8ByteSize = init.length + 1 := by
    rw [← length_bytes, hbytes, List.length_append]
    rfl
  refine ⟨last, ?_, init.length, hsize, ?_⟩
  · rw [BehindLastLine, and_iff_right rfl, ← bytes_eq_concat_lineFeed_iff, hbytes]
    constructor
    · rintro ⟨before, heq⟩
      exact List.singleton_inj.mp (List.append_inj' heq rfl).2
    · rintro rfl
      exact ⟨init, rfl⟩
  · have hinit : positionAt text init.length = positionBehind init := by
      rw [positionAt, hbytes, List.take_left]
    have hend : positionAt text (init.length + 1) = positionBehind (init ++ [last]) := by
      rw [positionAt, ← hsize, ← length_bytes, List.take_length, hbytes]
    rw [hend, positionBehind_concat, hinit]

/-- Nothing is converted from the place behind a last line feed. -/
theorem offsetOf_depth_eq_none (hne : text ≠ "") (h : BehindLastLine text offset) :
    offsetOf text (positionAt text offset).line (positionAt text offset).depth = none := by
  obtain ⟨last, hlast, n, hsize, hend⟩ := positionAt_end hne
  have hoffset : offset = text.utf8ByteSize := h.1
  rw [hoffset] at h ⊢
  rw [hsize, hend, if_pos (hlast.mp h), offsetOf_eq_none_iff]
  exact .inr (Nat.lt_succ_of_le (lines_length_le_of_last hsize))

/-- From every other place a byte of the text is converted. -/
theorem offsetOf_depth (hne : text ≠ "") (h : offset ≤ text.utf8ByteSize)
    (hbehind : ¬ BehindLastLine text offset) :
    reportedByte text offset < text.utf8ByteSize ∧
      offsetOf text (positionAt text offset).line (positionAt text offset).depth =
        some (reportedByte text offset) := by
  by_cases hlt : offset < text.utf8ByteSize
  · refine ⟨?_, offsetOf_depth_of_lt hlt⟩
    unfold reportedByte
    split <;> omega
  · obtain ⟨last, hlast, n, hsize, hend⟩ := positionAt_end hne
    obtain rfl : offset = n + 1 := by omega
    rw [← hsize, hlast] at hbehind
    rw [if_neg hbehind] at hend
    have hbyte : reportedByte text (n + 1) = n := by
      rw [reportedByte, hend, if_neg (Nat.succ_ne_zero _), Nat.add_sub_cancel]
    have hn : n < text.utf8ByteSize := by omega
    rw [hbyte, hend, Nat.add_comm (positionAt text n).depth]
    exact ⟨hn, offsetOf_positionAt hn⟩

end Reported

end Source

/-! ## Labels of broken documents -/

namespace SourceFile

open Source (BehindLastLine positionAt reportedByte)

variable {file : SourceFile} {offset : Nat}

/-- The document is broken at an offset, which is reported with the number of its line and the
number of bytes in front of it in the line. -/
def malformedAtOffset (file : SourceFile) (offset : Nat) : Fault :=
  file.malformedAt (positionAt file.text offset).line (positionAt file.text offset).depth

/-- A fault is told with a label, and its labels are bytes of the text. -/
structure LabelledBy (file : SourceFile) (fault : Fault) : Prop where
  labels_ne_nil : fault.labels ≠ []
  length_eq : ∀ label ∈ fault.labels, label.span.length = 1
  offset_lt : ∀ label ∈ fault.labels, label.span.offset < file.text.utf8ByteSize

theorem labels_malformedAt (file : SourceFile) (line column : Nat) :
    (file.malformedAt line column).labels =
      ((Source.offsetOf file.text line column).map fun place =>
        Label.mk "parse error here" ⟨place, 1⟩).toList := by
  simp [malformedAt, Fault.labels, Fault.label, Option.map_map, Function.comp_def]

theorem labels_malformedAtOffset (hne : file.text ≠ "") (h : offset ≤ file.text.utf8ByteSize)
    (hbehind : ¬ BehindLastLine file.text offset) :
    (file.malformedAtOffset offset).labels =
      [⟨"parse error here", ⟨reportedByte file.text offset, 1⟩⟩] := by
  rw [malformedAtOffset, labels_malformedAt, (Source.offsetOf_depth hne h hbehind).2]
  rfl

/-- A fault that is reported at an offset of a text that is not empty is labelled by a byte of the
text, unless the offset is the end of the text behind a line feed.  The byte is the one at the
offset where a line starts, and else the one before. -/
theorem labelled_malformedAtOffset_iff (hne : file.text ≠ "")
    (h : offset ≤ file.text.utf8ByteSize) :
    (file.LabelledBy (file.malformedAtOffset offset) ↔ ¬ BehindLastLine file.text offset) ∧
      ∀ label ∈ (file.malformedAtOffset offset).labels,
        label = ⟨"parse error here", ⟨reportedByte file.text offset, 1⟩⟩ := by
  by_cases hbehind : BehindLastLine file.text offset
  · have hlabels : (file.malformedAtOffset offset).labels = [] := by
      rw [malformedAtOffset, labels_malformedAt, Source.offsetOf_depth_eq_none hne hbehind]
      rfl
    refine ⟨iff_of_false (fun hlabelled => hlabelled.labels_ne_nil hlabels) (not_not_intro hbehind),
      ?_⟩
    rw [hlabels]
    exact fun label hlabel => absurd hlabel List.not_mem_nil
  · have hlabels := labels_malformedAtOffset hne h hbehind
    have hlabelled : file.LabelledBy (file.malformedAtOffset offset) := {
      labels_ne_nil := by simp [hlabels]
      length_eq := by simp [hlabels]
      offset_lt := by simpa [hlabels] using (Source.offsetOf_depth hne h hbehind).1 }
    refine ⟨iff_of_true hlabelled hbehind, ?_⟩
    rw [hlabels]
    exact fun label hlabel => List.mem_singleton.mp hlabel

/-- A document of three lines, of which the last one is not ended. -/
def closedFile : SourceFile := ⟨"model.json", "\x7b\n  x\n\x7d"⟩

theorem closedFile_labelled :
    closedFile.text ≠ "" ∧ 7 ≤ closedFile.text.utf8ByteSize ∧
      closedFile.LabelledBy (closedFile.malformedAtOffset 7) ∧
      (closedFile.malformedAtOffset 7).labels = [⟨"parse error here", ⟨6, 1⟩⟩] := by
  have hne : closedFile.text ≠ "" := by decide
  have hsize : 7 ≤ closedFile.text.utf8ByteSize := by decide
  have hbehind : ¬ BehindLastLine closedFile.text 7 := by
    rintro ⟨-, before, htext⟩
    have hlast := congrArg (fun text : String => text.toList.getLast?) htext
    simp [closedFile] at hlast
  have hlabelled := (labelled_malformedAtOffset_iff hne hsize).1.mpr hbehind
  exact ⟨hne, hsize, hlabelled, by decide +kernel⟩

/-- A document that is broken off behind its first line. -/
def openFile : SourceFile := ⟨"model.json", "\x7b\n"⟩

theorem openFile_not_labelled :
    openFile.text ≠ "" ∧ 2 ≤ openFile.text.utf8ByteSize ∧ positionAt openFile.text 2 = ⟨2, 0⟩ ∧
      (openFile.malformedAt 2 0).labels = [] ∧
      ¬ openFile.LabelledBy (openFile.malformedAtOffset 2) := by
  have hlabels : (openFile.malformedAtOffset 2).labels = [] := by decide +kernel
  exact ⟨by decide, by decide, by decide +kernel, by decide +kernel,
    fun hlabelled => hlabelled.labels_ne_nil hlabels⟩

end SourceFile

end SdkHeaders
