import SdkHeaders.Text.Words

/-!
# Paths

Paths as texts whose components are separated by slashes.  Empty components and single dots
name nothing; a path that starts with a slash starts at the root.

Main results:

- Definition `Path.join` appends a path to another; `Path.join_of_absolute` says that a path
  from the root stands for itself.
- Definition `Path.parent?` drops the last component, and `Path.ancestors` lists what is left
  when components are dropped one after the other.
- Definition `Path.fileExtension?` gives the extension of the last component.
-/

namespace SdkHeaders

namespace Path

/-- The parts of a path between its slashes. -/
def pieces (path : String) : List (List Char) :=
  Text.splitAtChar '/' path.toList

/-- Whether the path starts at the root. -/
def isAbsolute (path : String) : Bool :=
  path.toList.head? = some '/'

/-- Append a path to a base.  A path from the root replaces the base. -/
def join (base path : String) : String :=
  if isAbsolute path then path
  else if base = "" then path
  else if base.toList.getLast? = some '/' then base ++ path
  else base ++ "/" ++ path

/-- A path from the root stands for itself. -/
theorem join_of_absolute {base path : String} (h : isAbsolute path = true) :
    join base path = path := by
  simp [join, h]

/-- Whether a part of a path names nothing. -/
def isIdle (piece : List Char) : Bool :=
  piece = [] || piece = ['.']

/-- Drop the idle parts in front of a list of parts, but never its last member. -/
def dropIdle : List (List Char) → List (List Char)
  | [] => []
  | [piece] => [piece]
  | piece :: rest => if isIdle piece then dropIdle rest else piece :: rest

/-- Put parts together with slashes between them. -/
def ofPieces (parts : List (List Char)) : String :=
  match parts with
  | [[]] => "/"
  | _ => "/".intercalate (parts.map String.ofList)

/-- The path without its last component; a single component has the empty path as its
parent, and the root has none. -/
def parent? (path : String) : Option String :=
  match dropIdle (pieces path).reverse with
  | [] => none
  | [[]] => none
  | [_] => some ""
  | _ :: rest => some (ofPieces (dropIdle rest).reverse)

/-- The paths that are left when components are dropped from the end one after the other, at
most `bound` of them and without the empty path. -/
def outward (bound : Nat) (path : String) : List String :=
  match bound with
  | 0 => []
  | bound + 1 =>
      match parent? path with
      | none => []
      | some outer => if outer = "" then [] else outer :: outward bound outer

/-- The paths of the folders around a path, from the inside out.  Each has fewer parts than the
one before, which bounds their number. -/
def ancestors (path : String) : List String :=
  outward (pieces path).length path

/-- The parts of a path without the empty ones after its last slashes. -/
def properPieces (path : String) : List (List Char) :=
  ((pieces path).reverse.dropWhile List.isEmpty).reverse

/-- The last component, unless it is missing or leads upward. -/
def fileName? (path : String) : Option (List Char) :=
  match (pieces path).reverse.dropWhile isIdle with
  | [] => none
  | last :: _ => if last = ['.', '.'] then none else some last

/-- The text after the last dot of the last component.  A leading dot starts no
extension. -/
def fileExtension? (path : String) : Option (List Char) :=
  match fileName? path with
  | none => none
  | some name =>
      match name.reverse.dropWhile (· ≠ '.') with
      | [] => none
      | [_] => none
      | _ :: _ :: _ => some (name.reverse.takeWhile (· ≠ '.')).reverse

end Path

end SdkHeaders
