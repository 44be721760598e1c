import SdkHeaders.Document.Toml.Quoted
import SdkHeaders.Document.Toml.Scalar
import SdkHeaders.Document.Toml.Section

/-!
# TOML documents

The tree of a TOML text: lines with headings and assignments, whose values may take up
several lines.

Main definitions:

- Definitions `value`, `items` and `pairs` read nested values.
- Definition `lines` reads the lines of a document and `sections` groups them by headings.
- Definition `read` reads a document.
-/

namespace SdkHeaders.Toml

/-! ## Blanks, comments and line breaks -/

/-- The rest after a comment, at the line break that ends it. -/
def skipComment : List Char → Option (List Char)
  | [] => some []
  | '\n' :: rest => some ('\n' :: rest)
  | '\r' :: '\n' :: rest => some ('\r' :: '\n' :: rest)
  | c :: rest => if isPlain c then skipComment rest else none

/-- The rest after blank space, line breaks and comments; `comment` says whether the
characters belong to a comment. -/
def skipTrivia (comment : Bool) : List Char → Option (List Char)
  | [] => some []
  | '\r' :: '\n' :: rest => skipTrivia false rest
  | c :: rest =>
      if c = '\n' then skipTrivia false rest
      else if comment then if isPlain c then skipTrivia true rest else none
      else if isSpace c then skipTrivia false rest
      else if c = '#' then skipTrivia true rest
      else some (c :: rest)

/-- The rest after a line break or at the end of the text. -/
def lineBreak? : List Char → Option (List Char)
  | [] => some []
  | '\n' :: rest => some rest
  | '\r' :: '\n' :: rest => some rest
  | _ => none

/-- The rest after the end of a line, on which only a comment may follow. -/
def endLine? (cs : List Char) : Option (List Char) :=
  match cs.dropWhile isSpace with
  | '#' :: rest => (skipComment rest).bind lineBreak?
  | rest => lineBreak? rest

/-! ## Keys -/

/-- Whether the character may stand in a key without quotes. -/
def isBareKeyChar (c : Char) : Bool :=
  c.isAlphanum || c = '_' || c = '-'

/-- Read a key. -/
def key (cs : List Char) : Option (String × List Char) :=
  match lineQuoted cs with
  | some read => some read
  | none =>
      match cs.takeWhile isBareKeyChar with
      | [] => none
      | chars => some (String.ofList chars, cs.dropWhile isBareKeyChar)

/-- The number of keys that a path may have. -/
def pathLimit : Nat := 80

/-- Read a path of at most `limit` keys with dots between them; yield the keys in front of
the last one, the last one, and the rest after blank space. -/
def keyPath (limit : Nat) (cs : List Char) : Option (List String × String × List Char) :=
  match limit with
  | 0 => none
  | limit + 1 => do
      let (first, rest) ← key cs
      match rest.dropWhile isSpace with
      | '.' :: more =>
          let (path, last, after) ← keyPath limit (more.dropWhile isSpace)
          return (first :: path, last, after)
      | after => return ([], first, after)

/-! ## Values -/

/-- The depth to which lists and tables may be nested in a value. -/
def depthLimit : Nat := 80

mutual

/-- Read a value; `fuel` bounds the number of its parts and `depth` how deep lists and tables
may be nested in it. -/
def value (fuel depth : Nat) (cs : List Char) : Option (Node × List Char) :=
  match fuel with
  | 0 => none
  | fuel + 1 =>
      match cs with
      | '"' :: _ => (quoted cs).map fun (s, rest) => (.text s, rest)
      | '\'' :: _ => (quoted cs).map fun (s, rest) => (.text s, rest)
      | '[' :: rest =>
          if depth = 0 then none
          else (items fuel (depth - 1) rest).map fun (nodes, after) => (.list nodes, after)
      | '\x7b' :: rest =>
          if depth = 0 then none
          else do
            let (assignments, after) ← pairs fuel (depth - 1) rest
            return (← tableOf? assignments, after)
      | _ => scalar? cs

/-- Read the values of a list up to its closing bracket. -/
def items (fuel depth : Nat) (cs : List Char) : Option (List Node × List Char) :=
  match fuel with
  | 0 => none
  | fuel + 1 => do
      match ← skipTrivia false cs with
      | ']' :: after => return ([], after)
      | start =>
          let (first, rest) ← value fuel depth start
          match ← skipTrivia false rest with
          | ',' :: more =>
              let (others, after) ← items fuel depth more
              return (first :: others, after)
          | ']' :: after => return ([first], after)
          | _ => none

/-- Read the assignments of a table up to its closing brace.  Line breaks and comments may
stand around its equals signs and commas, but not within a path. -/
def pairs (fuel depth : Nat) (cs : List Char) : Option (List Assignment × List Char) :=
  match fuel with
  | 0 => none
  | fuel + 1 => do
      match ← skipTrivia false cs with
      | '\x7d' :: after => return ([], after)
      | start =>
          let (path, last, rest) ← keyPath pathLimit start
          match ← skipTrivia false rest with
          | '=' :: right =>
              let (node, rest) ← value fuel depth (← skipTrivia false right)
              match ← skipTrivia false rest with
              | ',' :: more =>
                  let (others, after) ← pairs fuel depth more
                  return (⟨path, last, node⟩ :: others, after)
              | '\x7d' :: after => return ([⟨path, last, node⟩], after)
              | _ => none
          | _ => none

end

/-! ## Lines -/

/-- What a line, or several lines with one value, says. -/
inductive Line where
  /-- Nothing. -/
  | blank
  /-- A heading. -/
  | heading (h : Heading)
  /-- An assignment. -/
  | assign (a : Assignment)

/-- Read a heading after its opening brackets up to its closing ones. -/
def heading : List Char → Option (Heading × List Char)
  | '[' :: rest => do
      let (path, last, after) ← keyPath pathLimit (rest.dropWhile isSpace)
      match after with
      | ']' :: ']' :: more => return (.element path last, more)
      | _ => none
  | rest => do
      let (path, last, after) ← keyPath pathLimit (rest.dropWhile isSpace)
      match after with
      | ']' :: more => return (.table path last, more)
      | _ => none

/-- Read an assignment. -/
def assignment (cs : List Char) : Option (Assignment × List Char) := do
  let (path, last, rest) ← keyPath pathLimit cs
  match rest with
  | '=' :: right =>
      let (node, after) ← value (2 * cs.length + 2) depthLimit (right.dropWhile isSpace)
      return (⟨path, last, node⟩, after)
  | _ => none

/-- Read what a line says. -/
def content (cs : List Char) : Option (Line × List Char) :=
  match cs with
  | [] => some (.blank, [])
  | '\n' :: _ => some (.blank, cs)
  | '\r' :: _ => some (.blank, cs)
  | '#' :: _ => some (.blank, cs)
  | '[' :: rest => (heading rest).map fun (h, after) => (.heading h, after)
  | _ => (assignment cs).map fun (a, after) => (.assign a, after)

/-- Read the lines of a text; `fuel` bounds their number. -/
def lines (fuel : Nat) (cs : List Char) : Option (List Line) :=
  match fuel, cs with
  | _, [] => some []
  | 0, _ => none
  | fuel + 1, _ => do
      let (line, rest) ← content (cs.dropWhile isSpace)
      let after ← endLine? rest
      return line :: (← lines fuel after)

/-! ## Documents -/

/-- The sections of lines, the first of which belong to a section that is already begun. -/
def sections (current : Heading) (assignments : List Assignment) : List Line → List Section
  | [] => [⟨current, assignments⟩]
  | .blank :: rest => sections current assignments rest
  | .assign a :: rest => sections current (assignments ++ [a]) rest
  | .heading h :: rest => ⟨current, assignments⟩ :: sections h [] rest

/-- The text without a byte order mark. -/
def dropMark : List Char → List Char
  | c :: rest => if c = '\ufeff' then rest else c :: rest
  | [] => []

/-- Read a document.  Every line takes at least one character, which bounds the number of
lines. -/
def read (text : String) : Option Node := do
  let cs := dropMark text.toList
  assemble? (sections .root [] (← lines (cs.length + 1) cs))

end SdkHeaders.Toml
