import SdkHeaders.Files.Path

/-!
# Document formats

The two notations in which a model file may be written, and how the name of the file selects
one of them.

Main results:

- Definition `Format.ofPath` selects JSON for the extension json in any mix of ASCII letter
  case, and TOML for everything else.
-/

namespace SdkHeaders

/-- The notation of a model file. -/
inductive Format where
  /-- Tables of keys and values, line by line. -/
  | toml
  /-- Nested objects and arrays. -/
  | json
  deriving DecidableEq, Repr

/-- The name of a notation. -/
def Format.text : Format → String
  | .toml => "toml"
  | .json => "json"

/-- Select the notation by the extension of a path. -/
def Format.ofPath (path : String) : Format :=
  match Path.fileExtension? path with
  | some ext => if ext.map Char.toLower = ['j', 's', 'o', 'n'] then .json else .toml
  | none => .toml

end SdkHeaders
