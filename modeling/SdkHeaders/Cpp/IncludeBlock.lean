import SdkHeaders.Cpp.Target

/-!
# Include blocks

The headers that a generated header includes: library headers in angle brackets, then
generated and framework headers in quotes, each group sorted and without repetition.

Main definitions:

- Structure `IncludeBlock` holds the two groups.
- Definition `Dependencies.includes` looks up the headers of dependencies.
- Definition `IncludeBlock.render` writes the include lines.
-/

namespace SdkHeaders

open Text (NameSet)

/-- The headers that a header includes. -/
structure IncludeBlock where
  /-- The library headers. -/
  system : NameSet
  /-- The generated headers and the headers of the framework. -/
  user : NameSet
  deriving DecidableEq, Repr

/-- The headers that declare the names of some dependencies. -/
def Dependencies.includes (d : Dependencies) (target : Target) : IncludeBlock where
  system := NameSet.ofList (d.system.toList.flatMap target.headersFor)
  user := NameSet.ofList (d.user.toList.map target.headerFile)

namespace IncludeBlock

/-- Whether nothing is included. -/
def isEmpty (block : IncludeBlock) : Bool :=
  block.system.isEmpty && block.user.isEmpty

/-- The line that includes a library header. -/
def systemLine (header : String) : String :=
  "#include <" ++ header ++ ">"

/-- The line that includes a generated header. -/
def userLine (header : String) : String :=
  "#include \"" ++ header ++ "\""

/-- The two groups of include lines, without an empty one. -/
def groups (block : IncludeBlock) : List (List String) :=
  [block.system.toList.map systemLine, block.user.toList.map userLine].filter
    fun group => !group.isEmpty

/-- The include lines with an empty line between the groups. -/
def render (block : IncludeBlock) : String :=
  match block.groups with
  | [] => ""
  | groups => "\n\n".intercalate (groups.map fun group => "\n".intercalate group) ++ "\n"

end IncludeBlock

end SdkHeaders
