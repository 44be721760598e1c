/-!
# Source texts and positions

Positions in the text of a model file.  Offsets and lengths count bytes of the text's
encoding.

Main results:

- Definition `findSpan` locates the quoted occurrences of a name.
- Definition `offsetOf` converts a line and a column to an offset.
- Theorem `findSpan_empty`: the empty name is never located.
-/

namespace SdkHeaders

/-- A range of bytes of a source text. -/
structure Span where
  /-- The number of bytes before the range. -/
  offset : Nat
  /-- The number of bytes in the range. -/
  length : Nat
  deriving DecidableEq, Repr

/-- A model file: its name in messages and its text. -/
structure SourceFile where
  /-- The name of the file. -/
  name : String
  /-- The text of the file. -/
  text : String
  deriving DecidableEq, Repr

namespace Source

/-- The sum of some numbers of bytes. -/
def total (sizes : List Nat) : Nat :=
  sizes.foldr (· + ·) 0

/-- The number of bytes that encode a character list. -/
def byteSize (cs : List Char) : Nat :=
  total (cs.map Char.utf8Size)

/-! ## Quoted names -/

/-- The offsets of the occurrences of a pattern from left to right, none overlapping the one
before.  The number `skip` of characters still belong to the last occurrence, and `offset`
is the offset of the first character given. -/
def occurrencesFrom (pattern : List Char) (skip offset : Nat) : List Char → List Nat
  | [] => []
  | c :: rest =>
      match skip with
      | k + 1 => occurrencesFrom pattern k (offset + c.utf8Size) rest
      | 0 =>
          if pattern.isPrefixOf (c :: rest) then
            offset :: occurrencesFrom pattern (pattern.length - 1) (offset + c.utf8Size) rest
          else occurrencesFrom pattern 0 (offset + c.utf8Size) rest

/-- A name between double quotes. -/
def quoted (name : List Char) : List Char :=
  '"' :: name ++ ['"']

/-- The offsets of the quoted occurrences of a name in a text. -/
def quotedOccurrences (text name : String) : List Nat :=
  occurrencesFrom (quoted name.toList) 0 0 text.toList

/-- The range of the name in its `n`-th quoted occurrence, counted from zero. -/
def findSpan (text name : String) (n : Nat) : Option Span :=
  if name = "" then none
  else (quotedOccurrences text name)[n]?.map fun offset =>
    ⟨offset + 1, byteSize name.toList⟩

/-- The empty name is never located. -/
theorem findSpan_empty (text : String) (n : Nat) : findSpan text "" n = none := by
  simp [findSpan]

/-! ## Lines and columns -/

/-- The lines of a character list, each with its line feed. -/
def brokenLines : List Char → List (List Char)
  | [] => []
  | '\n' :: rest => ['\n'] :: brokenLines rest
  | c :: rest =>
      match brokenLines rest with
      | [] => [[c]]
      | line :: more => (c :: line) :: more

/-- The offset of a column in a line, both counted from one.  A column beyond the line means
its end; a line that the text does not have means nothing. -/
def offsetOf (text : String) (line column : Nat) : Option Nat :=
  let sizes := (brokenLines text.toList).map byteSize
  match line with
  | 0 => none
  | before + 1 =>
      sizes[before]?.map fun size => total (sizes.take before) + min (column - 1) size

end Source

end SdkHeaders
