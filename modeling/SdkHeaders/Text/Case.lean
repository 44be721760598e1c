import SdkHeaders.Text.CaseTable

/-!
# Letter case

Case tests and case mappings of single characters.  A mapping may yield several
characters, and it never depends on the neighbours of the character.

Main results:

- Definitions `isCapital` and `isSmall` test the two letter classes.
- Definitions `upper` and `lower` give the capital and the small form of a character.
- Theorem `upper_ne_nil`: the capital form of a character is not empty.
-/

namespace SdkHeaders.Text

/-! ## Letter classes -/

/-- Whether the character is a capital letter. -/
def isCapital (c : Char) : Bool :=
  if c.toNat < 128 then c.isUpper else capitalRuns.any (·.holds c.toNat)

/-- Whether the character is a small letter. -/
def isSmall (c : Char) : Bool :=
  if c.toNat < 128 then c.isLower else smallRuns.any (·.holds c.toNat)

/-! ## Case mappings -/

/-- The image of a code under the first run that holds it, or the code itself. -/
def shiftCode (runs : List CaseRun) (code : Nat) : Nat :=
  match runs.find? (·.holds code) with
  | some run => run.apply code
  | none => code

/-- The characters that a character beyond ASCII is mapped to by a table of
expansions and a table of runs. -/
def mapCode (expansions : List (Nat × List Nat)) (runs : List CaseRun) (code : Nat) :
    List Char :=
  match expansions.lookup code with
  | some [] => [Char.ofNat code]
  | some (first :: more) => Char.ofNat first :: more.map Char.ofNat
  | none => [Char.ofNat (shiftCode runs code)]

/-- The capital form of a character. -/
def upper (c : Char) : List Char :=
  if c.toNat < 128 then [c.toUpper] else mapCode upperExpansions upperRuns c.toNat

/-- The small form of a character. -/
def lower (c : Char) : List Char :=
  if c.toNat < 128 then [c.toLower] else mapCode lowerExpansions lowerRuns c.toNat

/-- A table mapping always yields at least one character. -/
theorem mapCode_ne_nil (expansions : List (Nat × List Nat)) (runs : List CaseRun)
    (code : Nat) : mapCode expansions runs code ≠ [] := by
  unfold mapCode
  split <;> simp

/-- The capital form of a character has at least one character. -/
theorem upper_ne_nil (c : Char) : upper c ≠ [] := by
  unfold upper
  split
  · simp
  · exact mapCode_ne_nil _ _ _

end SdkHeaders.Text
