import SdkHeaders.Code.Builder

/-!
# Layout trees

Lines of code as a tree of scopes.  A tree is written by appending its lines to a text under
construction, which indents each line by the depth of its scope.

Main definitions:

- Type `Layout` is a line, an empty line or a scope with its body.
- Definition `Builder.write` appends a list of layouts to a text.
- Definition `Layout.render` gives the text of a list of layouts on its own.
-/

namespace SdkHeaders

/-- A piece of code. -/
inductive Layout where
  /-- A line at the current level. -/
  | line (s : String)
  /-- A line one level deeper. -/
  | continuation (s : String)
  /-- A line one level shallower. -/
  | label (s : String)
  /-- An empty line. -/
  | blank
  /-- A text of several lines at the current level. -/
  | text (s : String)
  /-- A braced scope with its closing line and its body. -/
  | scope (close : String) (body : List Layout)

namespace Builder

mutual

/-- Append a piece of code. -/
def writeOne (b : Builder) : Layout → Builder
  | .line s => b.line s
  | .continuation s => b.continuation s
  | .label s => b.label s
  | .blank => b.blank
  | .text s => b.text s
  | .scope close body => (write b.openBrace body).closeBrace close

/-- Append pieces of code one after the other. -/
def write (b : Builder) : List Layout → Builder
  | [] => b
  | first :: rest => write (b.writeOne first) rest

end

end Builder

namespace Layout

/-- The text of pieces of code at level zero. -/
def render (indent : String) (pieces : List Layout) : String :=
  ((Builder.new indent).write pieces).buffer

/-- A scope that is closed by a bare brace. -/
def braced (body : List Layout) : Layout :=
  .scope "\x7d" body

/-- Put an empty line between consecutive groups. -/
def spaced : List (List Layout) → List Layout
  | [] => []
  | [group] => group
  | group :: rest => group ++ .blank :: spaced rest

end Layout

end SdkHeaders
