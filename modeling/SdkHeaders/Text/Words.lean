import SdkHeaders.Text.Case

/-!
# Words and names

How a model name is respelled for an identifier, a comment or a namespace.

Main results:

- Definition `capitalize` and `lowerFirst` change the case of the first character only.
- Definition `splitWords` turns a camel case name into small words.
- Definition `titleizeNamespace` turns a dotted name into a qualified one.
- Theorem `capitalize_eq_empty_iff`: only the empty name capitalizes to nothing.
-/

namespace SdkHeaders.Text

/-! ## First letters -/

/-- Give the first character its capital form and leave the rest as it is. -/
def capitalizeChars : List Char → List Char
  | [] => []
  | c :: rest => upper c ++ rest

/-- Give the first character of a name its capital form. -/
def capitalize (s : String) : String :=
  String.ofList (capitalizeChars s.toList)

/-- Give the first character its small form and leave the rest as it is. -/
def lowerFirstChars : List Char → List Char
  | [] => []
  | c :: rest => lower c ++ rest

/-- Give the first character of a sentence its small form. -/
def lowerFirst (s : String) : String :=
  String.ofList (lowerFirstChars s.toList)

/-- Only the empty list of characters capitalizes to the empty list. -/
theorem capitalizeChars_eq_nil_iff (cs : List Char) : capitalizeChars cs = [] ↔ cs = [] := by
  cases cs with
  | nil => simp [capitalizeChars]
  | cons c rest => simp [capitalizeChars, upper_ne_nil]

/-- Only the empty name capitalizes to the empty name. -/
theorem capitalize_eq_empty_iff (s : String) : capitalize s = "" ↔ s = "" := by
  rw [capitalize, ← String.toList_inj, String.toList_ofList, ← String.toList_inj]
  exact capitalizeChars_eq_nil_iff s.toList

/-! ## Words of a camel case name -/

/-- Small forms of all characters, with a space before each capital that directly
follows a small letter; `afterSmall` says whether the preceding character was one. -/
def splitWordsFrom (afterSmall : Bool) : List Char → List Char
  | [] => []
  | c :: rest =>
      (if isCapital c && afterSmall then [' '] else []) ++ lower c ++
        splitWordsFrom (isSmall c) rest

/-- The words of a camel case name in small letters.  A run of capitals stays one word. -/
def splitWords (s : String) : String :=
  String.ofList (splitWordsFrom false s.toList)

/-! ## Qualified names -/

/-- The parts of a character list between occurrences of a separator. -/
def splitAtChar (separator : Char) : List Char → List (List Char)
  | [] => [[]]
  | c :: rest =>
      if c = separator then [] :: splitAtChar separator rest
      else
        match splitAtChar separator rest with
        | [] => [[c]]
        | part :: parts => (c :: part) :: parts

/-- The capitalized nonempty segments of a dotted name. -/
def namespaceParts (dotted : String) : List String :=
  ((splitAtChar '.' dotted.toList).filter (fun segment => !segment.isEmpty)).map
    fun segment => String.ofList (capitalizeChars segment)

/-- The qualified name of a dotted name: its nonempty segments, capitalized and joined
by double colons. -/
def titleizeNamespace (dotted : String) : String :=
  "::".intercalate (namespaceParts dotted)

end SdkHeaders.Text
