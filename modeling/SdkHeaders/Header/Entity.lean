import SdkHeaders.Cpp.IncludeBlock
import SdkHeaders.Header.Declaration
import SdkHeaders.Header.FreeFunction

/-!
# Entities

All that one header holds: a declaration, the functions that follow it, and what both
depend on.

Main definitions:

- Structure `Entity` is the content of a header.
- Definitions `Entity.headText`, `Entity.declarationText` and `Entity.functionTexts` give
  its texts.
- Definition `Entity.fileText` gives the whole header inside a namespace.
-/

namespace SdkHeaders

/-- The content of a header. -/
structure Entity where
  /-- The declared name. -/
  name : String
  /-- The role that the declaration plays. -/
  role : Role
  /-- What the header depends on. -/
  dependencies : Dependencies
  /-- The declaration. -/
  declaration : Header.Declaration
  /-- The functions after the declaration. -/
  functions : List Header.FreeFunction
  deriving DecidableEq, Repr

namespace Entity

/-- The text of the summary, the name and the bases. -/
def headText (target : Target) (e : Entity) : String :=
  Layout.render target.indent e.declaration.headLayout

/-- The text of the declaration. -/
def declarationText (target : Target) (e : Entity) : String :=
  Layout.render target.indent (e.declaration.layout target.indent)

/-- The texts of the functions. -/
def functionTexts (target : Target) (e : Entity) : List String :=
  e.functions.map fun f => Layout.render target.indent f.layout

/-- The headers that the header includes. -/
def includes (target : Target) (e : Entity) : IncludeBlock :=
  e.dependencies.includes target

/-- The include lines as code, with an empty line after them. -/
def includeLayout (block : IncludeBlock) : List Layout :=
  if block.isEmpty then [] else [.text block.render, .blank]

/-- The header as code inside a namespace. -/
def fileLayout (target : Target) (space : String) (e : Entity) : List Layout :=
  [.line "#pragma once", .blank] ++ includeLayout (e.includes target) ++
    [.line ("namespace " ++ space),
      .braced (.text (e.declarationText target) ::
        (e.functionTexts target).flatMap fun f => [.blank, .text f])]

/-- The text of the header inside a namespace. -/
def fileText (target : Target) (space : String) (e : Entity) : String :=
  Layout.render target.indent (e.fileLayout target space)

end Entity

end SdkHeaders
