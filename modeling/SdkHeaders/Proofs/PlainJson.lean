import SdkHeaders.Document.Json
import Mathlib.Data.List.DropRight

/-!
# Plain texts in documents

Texts that a document can write between double quotes as they stand, and how a reader of nested
values reads documents that are made of such texts.

Main results:

- Predicate `Json.IsPlain` says that no character of a text needs an escape in any notation.
- Predicates `Json.ReadsValue` and `Json.ReadsItems` say that characters are read as a value, and as
  the values of an array.
- Theorem `Json.readsValue_text`: a plain text between double quotes is read as this text.
- Theorem `Json.read_of_readsValue`: a text that is read as a value is a document of this value.
-/

namespace SdkHeaders

namespace Json

/-- A text that stands between double quotes as it is: no character closes it, starts an escape or
controls a terminal. -/
def IsPlain (s : String) : Prop :=
  ∀ c ∈ s.toList, c ≠ '"' ∧ c ≠ '\\' ∧ 32 ≤ c.toNat ∧ c.toNat ≠ 127

instance (s : String) : Decidable (IsPlain s) :=
  List.decidableBAll (fun c => c ≠ '"' ∧ c ≠ '\\' ∧ 32 ≤ c.toNat ∧ c.toNat ≠ 127) s.toList

/-! ## Texts -/

/-- A plain text is read up to its closing quote, character by character. -/
theorem stringBody_plain {cs : List Char} (h : ∀ c ∈ cs, c ≠ '"' ∧ c ≠ '\\' ∧ 32 ≤ c.toNat)
    (rest : List Char) : stringBody (cs ++ '"' :: rest) = some (cs.map Piece.char, rest) := by
  induction cs with
  | nil => rw [List.nil_append, stringBody, List.map_nil]
  | cons c cs ih =>
      obtain ⟨⟨hquote, hslash, hcontrol⟩, hcs⟩ := List.forall_mem_cons.mp h
      have hpass : (decide (c.toNat < 32) || decide (c = '\\')) = false := by
        simp [hslash, hcontrol]
      rw [List.cons_append, stringBody, ih hcs, if_neg (by rw [hpass]; decide)]
      · rfl
      · exact hquote
      · exact fun _ _ _ _ _ h => absurd h hslash
      · exact fun _ _ h => absurd h hslash

/-- Characters are read as they stand. -/
theorem characters?_map_char (cs : List Char) : characters? (cs.map Piece.char) = some cs := by
  induction cs with
  | nil => rfl
  | cons c cs ih => rw [List.map_cons, characters?, ih, Option.map_some]

theorem string_plain {s : String} (h : IsPlain s) (rest : List Char) :
    string (s.toList ++ '"' :: rest) = some (some s, rest) := by
  have hbody := stringBody_plain (fun c hc => ⟨(h c hc).1, (h c hc).2.1, (h c hc).2.2.1⟩) rest
  simp only [string, hbody, Option.map_some, characters?_map_char, String.ofList_toList]

/-! ## Values -/

/-- Space in front of a value is passed over. -/
theorem value_skipSpace (fuel : Nat) (cs : List Char) :
    value fuel (skipSpace cs) = value fuel cs := by
  have hskip : skipSpace (skipSpace cs) = skipSpace cs := List.dropWhile_idempotent isSpace cs
  cases fuel with
  | zero => rfl
  | succ fuel => rw [value, hskip, ← value]

/-- Space in front of the values of an array is passed over. -/
theorem elements_skipSpace (fuel : Nat) (cs : List Char) :
    elements fuel (skipSpace cs) = elements fuel cs := by
  cases fuel with
  | zero => rfl
  | succ fuel => rw [elements, elements, value_skipSpace]

/-- No value starts with a closing bracket. -/
theorem elements_close (fuel : Nat) (cs : List Char) : elements fuel (']' :: cs) = none := by
  cases fuel with
  | zero => rfl
  | succ fuel =>
      cases fuel with
      | zero => rfl
      | succ fuel =>
          simp [elements, value, skipSpace, isSpace, number, unsigned, Char.isDigit]

/-- A text is read as a value, whatever stands behind it. -/
def ReadsValue (node : Node) (s : String) : Prop :=
  ∀ fuel rest, 2 * s.toList.length ≤ fuel → value fuel (s.toList ++ rest) = some (node, rest)

/-- A text in front of a closing bracket is read as the values of an array. -/
def ReadsItems (items : List Node) (s : String) : Prop :=
  ∀ fuel rest, 2 * s.toList.length + 3 ≤ fuel →
    elements fuel (s.toList ++ ']' :: rest) = some (items, rest)

section Readers

variable {node : Node} {items : List Node} {s t : String}

/-- A plain text between double quotes is read as this text. -/
theorem readsValue_text (h : IsPlain s) : ReadsValue (.text s) ("\"" ++ s ++ "\"") := by
  intro fuel rest hfuel
  cases fuel with
  | zero => simp at hfuel
  | succ fuel =>
      have hstring := string_plain h rest
      simp [value, skipSpace, isSpace, hstring]

/-- The absence of a value. -/
theorem readsValue_null : ReadsValue .null "null" := by
  intro fuel rest hfuel
  cases fuel with
  | zero => simp at hfuel
  | succ fuel => simp [value, skipSpace, isSpace, word]

/-- A value behind a space. -/
theorem ReadsValue.space (h : ReadsValue node s) : ReadsValue node (" " ++ s) := by
  intro fuel rest hfuel
  rw [String.toList_append, List.length_append] at hfuel
  have hspace : skipSpace ((" " ++ s).toList ++ rest) = skipSpace (s.toList ++ rest) := by
    simp [skipSpace, isSpace]
  rw [← value_skipSpace, hspace, value_skipSpace]
  exact h fuel rest (by omega)

/-- An array without values. -/
theorem readsValue_nil : ReadsValue (.list []) "[]" := by
  intro fuel rest hfuel
  cases fuel with
  | zero => simp at hfuel
  | succ fuel => simp [value, skipSpace, isSpace]

/-- The values of an array between brackets. -/
theorem readsValue_list (h : ReadsItems items s) :
    ReadsValue (.list items) ("[" ++ s ++ "]") := by
  intro fuel rest hfuel
  simp only [String.toList_append, List.length_append] at hfuel
  cases fuel with
  | zero => simp at hfuel
  | succ fuel =>
      have hitems := h fuel rest (by simp at hfuel; omega)
      have hopen : skipSpace (("[" ++ s ++ "]").toList ++ rest) =
          '[' :: (s.toList ++ ']' :: rest) := by
        simp [skipSpace, isSpace]
      rw [value, hopen]
      rw [← elements_skipSpace] at hitems
      have hclose : ∀ more, skipSpace (s.toList ++ ']' :: rest) ≠ ']' :: more := by
        intro more hmore
        rw [hmore, elements_close] at hitems
        cases hitems
      simp only [hitems, Option.map_some]

/-- The last value of an array. -/
theorem readsItems_last (h : ReadsValue node s) : ReadsItems [node] s := by
  intro fuel rest hfuel
  cases fuel with
  | zero => simp at hfuel
  | succ fuel =>
      have hvalue := h fuel (']' :: rest) (by omega)
      simp [elements, hvalue, skipSpace, isSpace]

/-- A value of an array in front of others. -/
theorem readsItems_next (h : ReadsValue node s) (hrest : ReadsItems items t) :
    ReadsItems (node :: items) (s ++ "," ++ t) := by
  intro fuel rest hfuel
  simp only [String.toList_append, List.length_append] at hfuel
  cases fuel with
  | zero => simp at hfuel
  | succ fuel =>
      have hvalue := h fuel (',' :: (t.toList ++ ']' :: rest)) (by omega)
      have hitems := hrest fuel rest (by simp at hfuel; omega)
      simp [elements, hvalue, hitems, skipSpace, isSpace]

/-- A text that is read as a value is a document of this value. -/
theorem read_of_readsValue {text : String} (h : ReadsValue node s) (htext : text = s) :
    read text = some node := by
  obtain rfl := htext
  have hvalue := h (2 * text.toList.length + 2) [] (Nat.le_add_right _ 2)
  rw [List.append_nil] at hvalue
  simp only [read, hvalue, skipSpace, List.dropWhile_nil, List.isEmpty_nil, if_true]

end Readers

end Json

end SdkHeaders
