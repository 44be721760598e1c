import SdkHeaders.Document.Node

/-!
# JSON documents

The tree of a JSON text.  A text whose escapes do not form characters is kept as a value that
no field takes, so that it does no harm under a key that is not used.

Main definitions:

- Definitions `stringBody` and `number` read the leaves of the grammar.
- Definitions `value`, `elements` and `members` read nested values, and `read` reads a
  document.
-/

namespace SdkHeaders.Json

/-- Whether the character may stand between the parts of a document. -/
def isSpace (c : Char) : Bool :=
  c = ' ' || c = '\t' || c = '\n' || c = '\r'

/-- Drop the space in front of the next part. -/
def skipSpace (cs : List Char) : List Char :=
  cs.dropWhile isSpace

/-! ## Texts -/

/-- The value of a hexadecimal digit. -/
def hexDigit? (c : Char) : Option Nat :=
  if c.isDigit then some (c.toNat - '0'.toNat)
  else if 'a' ≤ c && c ≤ 'f' then some (c.toNat - 'a'.toNat + 10)
  else if 'A' ≤ c && c ≤ 'F' then some (c.toNat - 'A'.toNat + 10)
  else none

/-- The number that hexadecimal digits stand for. -/
def hexNumber? (digits : List Char) : Option Nat :=
  digits.foldlM (fun n c => (hexDigit? c).map fun d => 16 * n + d) 0

/-- A part of a text: a character as it stands, or a code unit of two bytes. -/
inductive Piece where
  /-- A character. -/
  | char (c : Char)
  /-- A code unit, perhaps one half of a pair. -/
  | unit (code : Nat)

/-- The character that a short escape stands for. -/
def escaped? : Char → Option Char
  | '"' => some '"'
  | '\\' => some '\\'
  | '/' => some '/'
  | 'b' => some '\x08'
  | 'f' => some '\x0c'
  | 'n' => some '\n'
  | 'r' => some '\r'
  | 't' => some '\t'
  | _ => none

/-- Read the parts of a text up to its closing quote; yield the rest after that quote. -/
def stringBody : List Char → Option (List Piece × List Char)
  | [] => none
  | '"' :: rest => some ([], rest)
  | '\\' :: 'u' :: a :: b :: c :: d :: rest => do
      let code ← hexNumber? [a, b, c, d]
      let (pieces, after) ← stringBody rest
      return (.unit code :: pieces, after)
  | '\\' :: e :: rest => do
      let c ← escaped? e
      let (pieces, after) ← stringBody rest
      return (.char c :: pieces, after)
  | c :: rest =>
      if c.toNat < 32 || c = '\\' then none
      else do
        let (pieces, after) ← stringBody rest
        return (.char c :: pieces, after)

/-- Whether a code unit is the first half of a pair. -/
def isHigh (code : Nat) : Bool :=
  0xD800 ≤ code && code < 0xDC00

/-- Whether a code unit is the second half of a pair. -/
def isLow (code : Nat) : Bool :=
  0xDC00 ≤ code && code < 0xE000

/-- The characters of a text, unless half of a pair stands alone. -/
def characters? : List Piece → Option (List Char)
  | [] => some []
  | .char c :: rest => (characters? rest).map (c :: ·)
  | .unit high :: .unit low :: rest =>
      if isHigh high then
        if isLow low then
          (characters? rest).map
            (Char.ofNat (0x10000 + (high - 0xD800) * 0x400 + (low - 0xDC00)) :: ·)
        else none
      else if isLow high then none
      else (characters? (.unit low :: rest)).map (Char.ofNat high :: ·)
  | .unit code :: rest =>
      if isHigh code || isLow code then none
      else (characters? rest).map (Char.ofNat code :: ·)

/-- Read a text after its opening quote; a text that is not made of characters is nothing. -/
def string (cs : List Char) : Option (Option String × List Char) :=
  (stringBody cs).map fun (pieces, rest) => ((characters? pieces).map String.ofList, rest)

/-! ## Numbers -/

/-- Drop one or more digits. -/
def skipDigits (cs : List Char) : Option (List Char) :=
  match cs.takeWhile Char.isDigit with
  | [] => none
  | _ => some (cs.dropWhile Char.isDigit)

/-- Drop a fractional part, if there is one. -/
def skipFraction : List Char → Option (List Char)
  | '.' :: rest => skipDigits rest
  | cs => some cs

/-- Drop an exponent, if there is one. -/
def skipExponent : List Char → Option (List Char)
  | c :: rest =>
      if c = 'e' || c = 'E' then
        match rest with
        | '+' :: digits => skipDigits digits
        | '-' :: digits => skipDigits digits
        | digits => skipDigits digits
      else some (c :: rest)
  | [] => some []

/-- The value of decimal digits. -/
def decimalNumber (digits : List Char) : Nat :=
  digits.foldl (fun n c => 10 * n + (c.toNat - '0'.toNat)) 0

/-- Read the digits of a number after its sign.  A number with a fraction or an exponent, and
a zero with a sign, is not whole. -/
def unsigned (negative : Bool) (cs : List Char) : Option (Node × List Char) :=
  let digits := cs.takeWhile Char.isDigit
  match digits with
  | [] => none
  | '0' :: _ :: _ => none
  | _ => do
      let whole := cs.dropWhile Char.isDigit
      let rest ← skipFraction whole
      let rest ← skipExponent rest
      let n := decimalNumber digits
      let node :=
        if rest.length < whole.length || (negative && n = 0) then Node.other
        else Node.integer (if negative then -(n : Int) else n)
      return (node, rest)

/-- Read a number. -/
def number : List Char → Option (Node × List Char)
  | '-' :: rest => unsigned true rest
  | cs => unsigned false cs

/-! ## Values -/

/-- Read a fixed word. -/
def word (expected : List Char) (node : Node) (cs : List Char) : Option (Node × List Char) :=
  if expected.isPrefixOf cs then some (node, cs.drop expected.length) else none

/-- The value of an object; one with a key that is not a text is not a table. -/
def objectNode (entries : List (Option String × Node)) : Node :=
  match entries.mapM fun (key, node) => key.map fun k => (k, node) with
  | some table => .table table
  | none => .other

mutual

/-- Read a value; `fuel` bounds the number of parts. -/
def value (fuel : Nat) (cs : List Char) : Option (Node × List Char) :=
  match fuel with
  | 0 => none
  | fuel + 1 =>
      match skipSpace cs with
      | '\x7b' :: rest =>
          match skipSpace rest with
          | '\x7d' :: after => some (.table [], after)
          | inner => (members fuel inner).map fun (entries, after) => (objectNode entries, after)
      | '[' :: rest =>
          match skipSpace rest with
          | ']' :: after => some (.list [], after)
          | inner => (elements fuel inner).map fun (items, after) => (.list items, after)
      | '"' :: rest => (string rest).map fun (s, after) => (s.elim .other .text, after)
      | 't' :: rest => word ['r', 'u', 'e'] (.flag true) rest
      | 'f' :: rest => word ['a', 'l', 's', 'e'] (.flag false) rest
      | 'n' :: rest => word ['u', 'l', 'l'] .null rest
      | other => number other

/-- Read the values of an array up to its closing bracket. -/
def elements (fuel : Nat) (cs : List Char) : Option (List Node × List Char) :=
  match fuel with
  | 0 => none
  | fuel + 1 => do
      let (item, rest) ← value fuel cs
      match skipSpace rest with
      | ']' :: after => return ([item], after)
      | ',' :: more =>
          let (items, after) ← elements fuel more
          return (item :: items, after)
      | _ => none

/-- Read the members of an object up to its closing brace. -/
def members (fuel : Nat) (cs : List Char) :
    Option (List (Option String × Node) × List Char) :=
  match fuel with
  | 0 => none
  | fuel + 1 => do
      match skipSpace cs with
      | '"' :: keyText =>
          let (key, rest) ← string keyText
          match skipSpace rest with
          | ':' :: valueText =>
              let (item, rest) ← value fuel valueText
              match skipSpace rest with
              | '\x7d' :: after => return ([(key, item)], after)
              | ',' :: more =>
                  let (entries, after) ← members fuel more
                  return ((key, item) :: entries, after)
              | _ => none
          | _ => none
      | _ => none

end

/-- Read a document: one value with nothing but space around it.  Every part of a value takes
at least one character, which bounds the number of parts. -/
def read (text : String) : Option Node :=
  let cs := text.toList
  match value (2 * cs.length + 2) cs with
  | some (node, rest) => if (skipSpace rest).isEmpty then some node else none
  | none => none

end SdkHeaders.Json
