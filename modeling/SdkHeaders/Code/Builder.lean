import SdkHeaders.Text.Lines

/-!
# Indented text under construction

A text that grows line by line at a current level of indentation, and braced scopes that
restore the level when they are closed.

Main results:

- Structure `Builder` is the text so far with its level; `Builder.line`, `Builder.label`,
  `Builder.continuation`, `Builder.blank` and `Builder.text` append to it.
- Structure `Scopes` adds the closing lines of the scopes that are still open.
- Theorems `Builder.level_line`, `Builder.level_label` and `Builder.level_continuation`:
  appending leaves the level alone.
-/

namespace SdkHeaders

/-- A text under construction. -/
structure Builder where
  /-- The text written once per level of indentation. -/
  indent : String
  /-- The current level. -/
  level : Nat
  /-- The text so far. -/
  buffer : String
  deriving DecidableEq, Repr

namespace Builder

/-- An empty text with the given indentation. -/
def new (indent : String) : Builder :=
  ⟨indent, 0, ""⟩

/-- The indentation of a number of levels. -/
def indentation (indent : String) : Nat → String
  | 0 => ""
  | level + 1 => indent ++ indentation indent level

/-- Append a line at the current level. -/
def line (b : Builder) (s : String) : Builder :=
  { b with buffer := b.buffer ++ indentation b.indent b.level ++ s ++ "\n" }

/-- Append a line one level deeper than the current one. -/
def continuation (b : Builder) (s : String) : Builder :=
  { b with buffer := b.buffer ++ indentation b.indent b.level ++ b.indent ++ s ++ "\n" }

/-- Append a line one level shallower than the current one, or at level zero. -/
def label (b : Builder) (s : String) : Builder :=
  { b with buffer := b.buffer ++ indentation b.indent (b.level - 1) ++ s ++ "\n" }

/-- Append an empty line. -/
def blank (b : Builder) : Builder :=
  { b with buffer := b.buffer ++ "\n" }

/-- Append one line of a given text; an empty one stays without indentation. -/
def textLine (b : Builder) (s : String) : Builder :=
  if s = "" then b.blank else b.line s

/-- Append a given text line by line at the current level. -/
def text (b : Builder) (s : String) : Builder :=
  (Text.lines s).foldl textLine b

/-- Go one level deeper. -/
def deepen (b : Builder) : Builder :=
  { b with level := b.level + 1 }

/-- Go one level up, but not above level zero. -/
def raise (b : Builder) : Builder :=
  { b with level := b.level - 1 }

/-- Append an opening brace and go one level deeper. -/
def openBrace (b : Builder) : Builder :=
  (b.line "\x7b").deepen

/-- Go one level up and append a closing line. -/
def closeBrace (b : Builder) (close : String) : Builder :=
  b.raise.line close

/-- A line leaves the level alone. -/
@[simp] theorem level_line (b : Builder) (s : String) : (b.line s).level = b.level := rfl

/-- A continuation leaves the level alone. -/
@[simp] theorem level_continuation (b : Builder) (s : String) :
    (b.continuation s).level = b.level := rfl

/-- A label leaves the level alone. -/
@[simp] theorem level_label (b : Builder) (s : String) : (b.label s).level = b.level := rfl

/-- An empty line leaves the level alone. -/
@[simp] theorem level_blank (b : Builder) : b.blank.level = b.level := rfl

/-- A scope is closed at the level at which it was opened. -/
@[simp] theorem level_closeBrace_openBrace (b : Builder) (close : String) :
    (b.openBrace.closeBrace close).level = b.level := rfl

end Builder

/-! ## Steps with open scopes -/

/-- A step of construction. -/
inductive BuildStep where
  /-- Append a line. -/
  | line (s : String)
  /-- Append a line one level deeper. -/
  | continuation (s : String)
  /-- Append a line one level shallower. -/
  | label (s : String)
  /-- Append an empty line. -/
  | blank
  /-- Append a text line by line. -/
  | text (s : String)
  /-- Go one level deeper. -/
  | deepen
  /-- Go one level up. -/
  | raise
  /-- Open a scope that will end in the given line. -/
  | openScope (close : String)
  /-- Close the innermost scope. -/
  | closeScope
  deriving DecidableEq, Repr

/-- A text under construction together with its open scopes. -/
structure Scopes where
  /-- The text under construction. -/
  builder : Builder
  /-- The closing lines of the open scopes, innermost first. -/
  pending : List String
  deriving DecidableEq, Repr

namespace Scopes

/-- An empty text without open scopes. -/
def new (indent : String) : Scopes :=
  ⟨.new indent, []⟩

/-- Close the innermost scope, if one is open. -/
def close (s : Scopes) : Scopes :=
  match s.pending with
  | [] => s
  | last :: rest => ⟨s.builder.closeBrace last, rest⟩

/-- Take one step. -/
def step (s : Scopes) : BuildStep → Scopes
  | .line t => { s with builder := s.builder.line t }
  | .continuation t => { s with builder := s.builder.continuation t }
  | .label t => { s with builder := s.builder.label t }
  | .blank => { s with builder := s.builder.blank }
  | .text t => { s with builder := s.builder.text t }
  | .deepen => { s with builder := s.builder.deepen }
  | .raise => { s with builder := s.builder.raise }
  | .openScope t => ⟨s.builder.openBrace, t :: s.pending⟩
  | .closeScope => s.close

/-- The states after each of a list of steps. -/
def run (s : Scopes) : List BuildStep → List Scopes
  | [] => []
  | first :: rest => s.step first :: (s.step first).run rest

/-- The states after closing each open scope in turn, innermost first. -/
def unwind (builder : Builder) : List String → List Scopes
  | [] => []
  | last :: rest => ⟨builder.closeBrace last, rest⟩ :: unwind (builder.closeBrace last) rest

/-- The states after each step and then after closing each scope that is still open. -/
def trace (s : Scopes) (steps : List BuildStep) : List Scopes :=
  let states := s.run steps
  let final := states.getLast?.getD s
  states ++ unwind final.builder final.pending

end Scopes

end SdkHeaders
