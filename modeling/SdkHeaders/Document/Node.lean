/-!
# Document trees

What a model document says apart from its notation: values, lists and tables of values.

Main definitions:

- Type `Node` is a value of a document.
- Definition `Node.isSound` says that every number in a value has a value of its own.
-/

namespace SdkHeaders

/-- A value of a document. -/
inductive Node where
  /-- The absence of a value, where a notation can write it. -/
  | null
  /-- A truth value. -/
  | flag (value : Bool)
  /-- A whole number. -/
  | integer (value : Int)
  /-- A text. -/
  | text (value : String)
  /-- A value that no field of a model takes, such as a fraction or a date. -/
  | other
  /-- What is written as a number but has no value: it is out of the range of all numbers, or
  its digits are missing or improper. -/
  | badNumber
  /-- Values in order. -/
  | list (items : List Node)
  /-- Values under keys, in the order of the document.  A key may be repeated. -/
  | table (entries : List (String × Node))
  deriving Repr

mutual

/-- Whether no number in a value is bad. -/
def Node.isSound : Node → Bool
  | .badNumber => false
  | .list items => itemsSound items
  | .table entries => entriesSound entries
  | _ => true

/-- Whether no number in values is bad. -/
def itemsSound : List Node → Bool
  | [] => true
  | item :: rest => item.isSound && itemsSound rest

/-- Whether no number in the values of a table is bad. -/
def entriesSound : List (String × Node) → Bool
  | [] => true
  | (_, node) :: rest => node.isSound && entriesSound rest

end

end SdkHeaders
