import SdkHeaders.Document.Toml.Quoted

/-!
# Unquoted values of TOML documents

Numbers, truth values, dates and times, each read from the characters that it takes up.
Fractions and dates are only checked, since no field of a model takes them.

What is written as a number need not have a value: it may be too large, or lack proper digits.
Such a number is kept and does no harm where it is not looked at.

Main definitions:

- Definition `isNumeral` says where underscores may stand in a number.
- Definitions `integer?`, `radixInteger?`, `fraction?` and `isMoment` tell the kinds of
  values apart.
- Definition `scalarChars` finds the characters of a value, and `scalar?` reads it.
-/

namespace SdkHeaders.Toml

/-! ## Digits -/

/-- Whether the characters start with a sign. -/
def isSigned : List Char → Bool
  | '+' :: _ => true
  | '-' :: _ => true
  | _ => false

/-- The characters after a sign, if there is one. -/
def dropSign (cs : List Char) : List Char :=
  if isSigned cs then cs.drop 1 else cs

/-- The characters without the underscores. -/
def dropMarks (cs : List Char) : List Char :=
  cs.filter (· ≠ '_')

/-- Whether every underscore stands behind a digit and in front of one; `behind` says whether
the characters themselves stand behind a digit. -/
def isGrouped (isDigit : Char → Bool) (behind : Bool) : List Char → Bool
  | [] => true
  | ['_'] => false
  | '_' :: c :: rest => behind && isDigit c && isGrouped isDigit true rest
  | c :: rest => isGrouped isDigit (isDigit c) rest

/-- Whether the underscores of a number stand between digits.  The first one may also stand
between a sign and a digit. -/
def isNumeral (isDigit : Char → Bool) (cs : List Char) : Bool :=
  isGrouped isDigit (isSigned cs) (dropSign cs)

/-- Whether the character is a digit in a base. -/
def isDigitOf (base : Nat) (c : Char) : Bool :=
  ((Json.hexDigit? c).map fun d => decide (d < base)).getD false

/-- The value of digits in a base. -/
def digitsValue (base : Nat) (digits : List Char) : Nat :=
  digits.foldl (fun n c => base * n + (Json.hexDigit? c).getD 0) 0

/-- The value of characters if they are digits in a base and at least one. -/
def natural? (base : Nat) (cs : List Char) : Option Nat :=
  if cs.isEmpty || !cs.all (isDigitOf base) then none else some (digitsValue base cs)

/-- The value of decimal digits with or without a sign. -/
def decimal? (cs : List Char) : Option Int :=
  (natural? 10 (dropSign cs)).map fun n => if cs.head? = some '-' then -(n : Int) else n

/-! ## Whole numbers -/

/-- A whole number, which is in range if 128 bits are enough for it. -/
def wholeNode : Option Int → Node
  | some n => if -Int.pow 2 127 ≤ n ∧ n < Int.pow 2 128 then .integer n else .badNumber
  | none => .badNumber

/-- Whether the characters start with a zero that is not a number by itself. -/
def isPadded : List Char → Bool
  | '0' :: _ :: _ => true
  | _ => false

/-- Whether the character shows that a number is not whole. -/
def isFractional (c : Char) : Bool :=
  c = '.' || c = 'e' || c = 'E'

/-- Whether the characters after the first digits of a number leave it whole: there are none, or
an underscore starts them and no blank is among them.  Which other characters are among them does
not count, so such a number may have no value. -/
def isContinued : List Char → Bool
  | [] => true
  | '_' :: rest => !rest.any fun c => c = ' ' || isFractional c
  | _ => false

/-- A whole number in decimal digits.  Around its underscores it may have the letters of
hexadecimal digits, but then it has no value. -/
def integer? (cs : List Char) : Option Node :=
  let body := dropSign cs
  if !body.isEmpty && !isPadded body && isContinued (body.dropWhile Char.isDigit) &&
      isNumeral (isDigitOf 16) cs then
    some (wholeNode (decimal? (dropMarks cs)))
  else none

/-- A whole number whose digits are in the given base.  It has no value without digits. -/
def inBase? (base : Nat) (cs : List Char) : Option Node :=
  let digits := dropMarks cs
  if digits.all (isDigitOf base) && isGrouped (isDigitOf base) false cs then
    some (wholeNode ((natural? base digits).map Int.ofNat))
  else none

/-- A whole number that names its base. -/
def radixInteger? : List Char → Option Node
  | '0' :: 'x' :: digits => inBase? 16 digits
  | '0' :: 'o' :: digits => inBase? 8 digits
  | '0' :: 'b' :: digits => inBase? 2 digits
  | _ => none

/-! ## Fractions -/

/-- The least number that is not below the range of floating-point numbers of 64 bits. -/
def tooLarge : Nat := Nat.pow 2 1024 - Nat.pow 2 970

/-- Whether `digits` times ten to the power of `exponent` is in the range of floating-point
numbers of 64 bits.  Powers far from the end of the range are not computed. -/
def isFinite (digits : List Char) (exponent : Int) : Bool :=
  let significant := digits.dropWhile (· = '0')
  let n := digitsValue 10 significant
  let magnitude := (significant.length : Int) + exponent
  if n = 0 || magnitude < 309 then true
  else if 309 < magnitude then false
  else if 0 ≤ exponent then n * Nat.pow 10 exponent.toNat < tooLarge
  else n < tooLarge * Nat.pow 10 (-exponent).toNat

/-- Whether the character starts an exponent. -/
def isPowerMark (c : Char) : Bool :=
  c = 'e' || c = 'E'

/-- The parts of a fraction without underscores: the digits in front of the point, those behind
it, and the exponent.  A missing part behind the point has no digits. -/
def fractionParts? (cs : List Char) : Option (List Char × List Char × Int) := do
  let mantissa := cs.takeWhile (!isPowerMark ·)
  let whole := mantissa.takeWhile (· ≠ '.')
  let part := (mantissa.dropWhile (· ≠ '.')).drop 1
  let _ ← natural? 10 whole
  if mantissa.contains '.' then
    let _ ← natural? 10 part
  let exponent ← if cs.any isPowerMark then decimal? (cs.drop (mantissa.length + 1)) else some 0
  return (whole, part, exponent)

/-- A fraction: whole digits with a fractional part, an exponent or both, or a word for what is
not a number. -/
def fraction? (cs : List Char) : Option Node :=
  let body := dropSign cs
  if body = ['i', 'n', 'f'] || body = ['n', 'a', 'n'] then some .other
  else if body.any isFractional && isNumeral Char.isDigit cs then do
    let (whole, part, exponent) ← fractionParts? (dropMarks body)
    if body.head? = some '0' && 1 < whole.length then none
    else if isFinite (whole ++ part) (exponent - part.length) then some .other
    else some .badNumber
  else none

/-! ## Dates and times -/

/-- The value of a fixed number of decimal digits, and the rest. -/
def fixedDigits? (count : Nat) (cs : List Char) : Option (Nat × List Char) :=
  let digits := cs.take count
  if digits.length = count && digits.all Char.isDigit then
    some (digitsValue 10 digits, cs.drop count)
  else none

/-- The rest after an expected character. -/
def expect? (c : Char) : List Char → Option (List Char)
  | d :: rest => if d = c then some rest else none
  | [] => none

/-- The number of days of a month. -/
def daysOf (year month : Nat) : Nat :=
  if month = 2 then
    if year % 4 = 0 && (year % 100 ≠ 0 || year % 400 = 0) then 29 else 28
  else if month = 4 || month = 6 || month = 9 || month = 11 then 30
  else 31

/-- The rest after a date. -/
def skipDate? (cs : List Char) : Option (List Char) := do
  let (year, rest) ← fixedDigits? 4 cs
  let (month, rest) ← fixedDigits? 2 (← expect? '-' rest)
  let (day, rest) ← fixedDigits? 2 (← expect? '-' rest)
  if 1 ≤ month && month ≤ 12 && 1 ≤ day && day ≤ daysOf year month then some rest else none

/-- The rest after the fraction of a second, if there is one. -/
def skipFraction? : List Char → Option (List Char)
  | '.' :: rest => Json.skipDigits rest
  | cs => some cs

/-- The rest after a time of day.  Seconds may be left out. -/
def skipTime? (cs : List Char) : Option (List Char) := do
  let (hour, rest) ← fixedDigits? 2 cs
  let (minute, rest) ← fixedDigits? 2 (← expect? ':' rest)
  if 23 < hour || 59 < minute then none
  else
    match rest with
    | ':' :: more => do
        let (second, after) ← fixedDigits? 2 more
        if 60 < second then none else skipFraction? after
    | _ => some rest

/-- Whether the characters are nothing or the offset of a time zone. -/
def isOffset : List Char → Bool
  | [] => true
  | ['Z'] => true
  | ['z'] => true
  | c :: rest =>
      let read := do
        let (hours, rest) ← fixedDigits? 2 rest
        let (minutes, rest) ← fixedDigits? 2 (← expect? ':' rest)
        return hours ≤ 23 && minutes ≤ 59 && rest.isEmpty
      (c = '+' || c = '-') && read.getD false

/-- Whether the character may stand between a date and a time. -/
def isMomentMark (c : Char) : Bool :=
  c = 'T' || c = 't' || c = ' '

/-- Whether the characters are a date, a time, or both. -/
def isMoment (cs : List Char) : Bool :=
  match skipDate? cs with
  | some [] => true
  | some (c :: rest) => isMomentMark c && ((skipTime? rest).map isOffset).getD false
  | none => skipTime? cs = some []

/-! ## All kinds -/

/-- Whether the character may stand in an unquoted value: it separates nothing, or it is a
point. -/
def isScalarChar (c : Char) : Bool :=
  !(isSpace c || ['=', ',', '[', ']', '\x7b', '\x7d', '#', '\r', '\n'].contains c)

/-- Whether the characters start with one that carries an unquoted value on behind a blank. -/
def carriesOn : List Char → Bool
  | [] => false
  | c :: _ => isScalarChar c && c ≠ '.' && c ≠ '"' && c ≠ '\''

/-- The characters of an unquoted value, and the rest.  Blanks belong to the value if more of it
follows. -/
def scalarChars : List Char → List Char × List Char
  | [] => ([], [])
  | c :: rest =>
      if isScalarChar c || (isSpace c && carriesOn (rest.dropWhile isSpace)) then
        consChar c (scalarChars rest)
      else ([], c :: rest)

/-- The value that characters stand for. -/
def scalarNode? (cs : List Char) : Option Node :=
  if cs = ['t', 'r', 'u', 'e'] then some (.flag true)
  else if cs = ['f', 'a', 'l', 's', 'e'] then some (.flag false)
  else
    match integer? cs with
    | some node => some node
    | none =>
        match radixInteger? cs with
        | some node => some node
        | none =>
            match fraction? cs with
            | some node => some node
            | none => if isMoment cs then some .other else none

/-- Read an unquoted value. -/
def scalar? (cs : List Char) : Option (Node × List Char) :=
  (scalarNode? (scalarChars cs).1).map fun node => (node, (scalarChars cs).2)

end SdkHeaders.Toml
