import SdkHeaders.Document.Json

/-!
# Quoted texts of TOML documents

The four kinds of quoted texts: with or without escapes, on one line or on several.

Main definitions:

- Definitions `basic` and `literal` read a text on one line.
- Definitions `multiBasic` and `multiLiteral` read a text on several lines.
- Definition `quoted` tells the kinds apart.
-/

namespace SdkHeaders.Toml

/-- Whether the character is blank space within a line. -/
def isSpace (c : Char) : Bool :=
  c = ' ' || c = '\t'

/-- Whether the character may stand in a text or a comment as it is. -/
def isPlain (c : Char) : Bool :=
  c = '\t' || (32 ≤ c.toNat && c.toNat ≠ 127)

/-! ## Escapes -/

/-- The character that a short escape stands for. -/
def escaped? : Char → Option Char
  | 'b' => some '\x08'
  | 't' => some '\t'
  | 'n' => some '\n'
  | 'f' => some '\x0c'
  | 'r' => some '\r'
  | 'e' => some '\x1b'
  | '"' => some '"'
  | '\\' => some '\\'
  | _ => none

/-- Read a character given by a number of hexadecimal digits. -/
def hexChar (count : Nat) (cs : List Char) : Option (Char × List Char) :=
  let digits := cs.take count
  if digits.length < count then none
  else do
    let code ← Json.hexNumber? digits
    if code.isValidChar then some (Char.ofNat code, cs.drop count) else none

/-- Read an escape after its backslash. -/
def escape : List Char → Option (Char × List Char)
  | 'x' :: rest => hexChar 2 rest
  | 'u' :: rest => hexChar 4 rest
  | 'U' :: rest => hexChar 8 rest
  | c :: rest => (escaped? c).map fun e => (e, rest)
  | [] => none

/-! ## Texts on one line -/

/-- Put a character in front of a text that has been read. -/
def consChar (c : Char) (read : List Char × List Char) : List Char × List Char :=
  (c :: read.1, read.2)

/-- Read a text with escapes up to its closing quote; `fuel` bounds its length. -/
def basic (fuel : Nat) (cs : List Char) : Option (List Char × List Char) :=
  match fuel, cs with
  | _ + 1, '"' :: rest => some ([], rest)
  | fuel + 1, '\\' :: rest => do
      let (c, after) ← escape rest
      return consChar c (← basic fuel after)
  | fuel + 1, c :: rest => if isPlain c then (basic fuel rest).map (consChar c) else none
  | _, _ => none

/-- Read a text without escapes up to its closing quote. -/
def literal : List Char → Option (List Char × List Char)
  | [] => none
  | c :: rest =>
      if c = '\'' then some ([], rest)
      else if isPlain c then (literal rest).map (consChar c)
      else none

/-! ## Texts on several lines -/

/-- Drop a line break directly after the opening quotes. -/
def skipFirstBreak : List Char → List Char
  | '\n' :: rest => rest
  | '\r' :: '\n' :: rest => rest
  | cs => cs

/-- Drop blank space and line breaks. -/
def skipBreaks : List Char → List Char
  | '\r' :: '\n' :: rest => skipBreaks rest
  | c :: rest => if isSpace c || c = '\n' then skipBreaks rest else c :: rest
  | [] => []

/-- The rest after a backslash that ends its line and joins it with the next text, if it is
one. -/
def joinedLine? (cs : List Char) : Option (List Char) :=
  match cs.dropWhile isSpace with
  | '\n' :: rest => some (skipBreaks rest)
  | '\r' :: '\n' :: rest => some (skipBreaks rest)
  | _ => none

/-- The text that ends in a run of quotes and the rest after the run, if the run closes it:
three quotes do, and up to two more in front of them belong to the text. -/
def closing? (quote : Char) (cs : List Char) : Option (List Char × List Char) :=
  let run := (cs.takeWhile (· = quote)).length
  if run < 3 then none
  else
    let extra := min (run - 3) 2
    some (List.replicate extra quote, cs.drop (extra + 3))

/-- Read a text with escapes on several lines up to its closing quotes; `fuel` bounds its
length. -/
def multiBasic (fuel : Nat) (cs : List Char) : Option (List Char × List Char) :=
  match fuel with
  | 0 => none
  | fuel + 1 =>
      match closing? '"' cs with
      | some done => some done
      | none =>
          match cs with
          | '\\' :: rest =>
              match joinedLine? rest with
              | some after => multiBasic fuel after
              | none => do
                  let (c, after) ← escape rest
                  return consChar c (← multiBasic fuel after)
          | '\r' :: '\n' :: rest =>
              (multiBasic fuel rest).map fun read => consChar '\r' (consChar '\n' read)
          | c :: rest =>
              if c = '\n' || isPlain c then (multiBasic fuel rest).map (consChar c) else none
          | [] => none

/-- Read a text without escapes on several lines up to its closing quotes; `fuel` bounds its
length. -/
def multiLiteral (fuel : Nat) (cs : List Char) : Option (List Char × List Char) :=
  match fuel with
  | 0 => none
  | fuel + 1 =>
      match closing? '\'' cs with
      | some done => some done
      | none =>
          match cs with
          | '\r' :: '\n' :: rest =>
              (multiLiteral fuel rest).map fun read => consChar '\r' (consChar '\n' read)
          | c :: rest =>
              if c = '\n' || isPlain c then (multiLiteral fuel rest).map (consChar c) else none
          | [] => none

/-! ## All kinds -/

/-- The text of the characters that have been read. -/
def asText (read : Option (List Char × List Char)) : Option (String × List Char) :=
  read.map fun (chars, rest) => (String.ofList chars, rest)

/-- Read a quoted text on one line from its opening quote on. -/
def lineQuoted : List Char → Option (String × List Char)
  | '"' :: rest => asText (basic (rest.length + 1) rest)
  | '\'' :: rest => asText (literal rest)
  | _ => none

/-- Read a quoted text of any kind from its opening quote on. -/
def quoted : List Char → Option (String × List Char)
  | '"' :: '"' :: '"' :: rest => asText (multiBasic (rest.length + 1) (skipFirstBreak rest))
  | '\'' :: '\'' :: '\'' :: rest =>
      asText (multiLiteral (rest.length + 1) (skipFirstBreak rest))
  | cs => lineQuoted cs

end SdkHeaders.Toml
