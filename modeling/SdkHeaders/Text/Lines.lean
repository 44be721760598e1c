/-!
# Lines of a text

A line ends at a line feed.  A carriage return directly before that line feed belongs to
the line break; one anywhere else is an ordinary character.

Main results:

- Definition `lines` lists the lines of a text without their breaks; a text that ends in
  a line break has no further, empty line.
- Theorem `lineList_of_not_mem`: a text without line feed is one line.
-/

namespace SdkHeaders.Text

/-- Put a character in front of the first line, or start a line with it. -/
def consLine (c : Char) : List (List Char) → List (List Char)
  | [] => [[c]]
  | line :: rest => (c :: line) :: rest

/-- The lines of a character list. -/
def lineList : List Char → List (List Char)
  | [] => []
  | '\r' :: '\n' :: rest => [] :: lineList rest
  | '\n' :: rest => [] :: lineList rest
  | c :: rest => consLine c (lineList rest)

/-- The lines of a text. -/
def lines (s : String) : List String :=
  (lineList s.toList).map String.ofList

/-- A nonempty text without line feed is one line. -/
theorem lineList_of_not_mem {cs : List Char} (hne : cs ≠ []) (h : '\n' ∉ cs) :
    lineList cs = [cs] := by
  induction cs with
  | nil => exact absurd rfl hne
  | cons c rest ih =>
      have hc : c ≠ '\n' := fun he => h (by simp [he])
      have hrest : '\n' ∉ rest := fun hm => h (List.mem_cons_of_mem c hm)
      cases rest with
      | nil => simp [lineList, consLine]
      | cons d more =>
          have hd : d ≠ '\n' := fun he => hrest (by simp [he])
          rw [lineList]
          · rw [ih (by simp) hrest]
            rfl
          · intro _ _ hcr
            simp only [List.cons.injEq] at hcr
            exact hd hcr.1
          · exact hc

end SdkHeaders.Text
