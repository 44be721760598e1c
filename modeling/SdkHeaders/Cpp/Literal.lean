/-!
# Text literals

How a text is put between the quotes of a literal.

Main results:

- Definition `Literal.escape` puts a backslash before each backslash and each double quote.
- Theorem `Literal.escapeChars_append`: a text is escaped character by character.
-/

namespace SdkHeaders.Literal

/-- Put a backslash before each backslash and each double quote. -/
def escapeChars : List Char → List Char
  | [] => []
  | c :: rest =>
      if c = '\\' ∨ c = '"' then '\\' :: c :: escapeChars rest else c :: escapeChars rest

/-- The text as it stands in a literal. -/
def escape (s : String) : String :=
  String.ofList (escapeChars s.toList)

/-- A text is escaped character by character. -/
theorem escapeChars_append (s t : List Char) :
    escapeChars (s ++ t) = escapeChars s ++ escapeChars t := by
  induction s with
  | nil => rfl
  | cons c rest ih =>
      simp only [List.cons_append, escapeChars, ih]
      split <;> rfl

/-- A literal of wide characters around a text that is taken as it stands. -/
def wide (body : String) : String :=
  "L\"" ++ body ++ "\""

/-- A literal of the platform's characters around a text that is taken as it stands. -/
def platform (body : String) : String :=
  "U(\"" ++ body ++ "\")"

end SdkHeaders.Literal
