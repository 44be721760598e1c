/-!
# Type expressions

The types that generated code mentions, each name marked as one that the language or its
libraries supply or as one that a header of the same kind declares.

Main results:

- Type `TypeName` is a marked name, and type `TypeExpr` applies names to arguments.
- Definition `TypeExpr.names` lists the names in a type expression.
- Structure `BaseList` holds the bases of a declaration, an interface before a class.
-/

namespace SdkHeaders

/-- A name that stands for a type. -/
inductive TypeName where
  /-- A name from the language or its libraries. -/
  | system (spelling : String)
  /-- A name that a generated header or a header of the framework declares. -/
  | user (spelling : String)
  deriving DecidableEq, Repr

/-- The spelling of a type name. -/
def TypeName.text : TypeName → String
  | system s => s
  | user s => s

/-- Whether the name comes from the language or its libraries. -/
def TypeName.isSystem : TypeName → Bool
  | system _ => true
  | user _ => false

/-- A type: a name, or a template with its argument. -/
inductive TypeExpr where
  /-- A name by itself. -/
  | plain (name : TypeName)
  /-- A template applied to an argument. -/
  | applied (template : TypeName) (argument : TypeExpr)
  deriving DecidableEq, Repr

namespace TypeExpr

/-- The spelling of a type. -/
def text : TypeExpr → String
  | plain name => name.text
  | applied template argument => template.text ++ "<" ++ argument.text ++ ">"

/-- The names in a type, from left to right. -/
def names : TypeExpr → List TypeName
  | plain name => [name]
  | applied template argument => template :: argument.names

/-- A type from the language or its libraries. -/
def system (spelling : String) : TypeExpr :=
  plain (.system spelling)

/-- A type that a header declares. -/
def user (spelling : String) : TypeExpr :=
  plain (.user spelling)

/-- A template from the libraries applied to a type. -/
def systemOf (template : String) (argument : TypeExpr) : TypeExpr :=
  applied (.system template) argument

/-- A template of the framework applied to a type. -/
def userOf (template : String) (argument : TypeExpr) : TypeExpr :=
  applied (.user template) argument

end TypeExpr

/-! ## Bases -/

/-- The bases of a declaration. -/
structure BaseList where
  /-- The interface that the declaration implements or extends. -/
  interface? : Option TypeExpr
  /-- The class that the declaration extends. -/
  primary? : Option TypeExpr
  deriving DecidableEq, Repr

namespace BaseList

/-- No bases. -/
def empty : BaseList :=
  ⟨.none, .none⟩

/-- The bases of an interface, which extends at most another interface. -/
def ofInterface (base : Option TypeExpr) : BaseList :=
  ⟨base, .none⟩

/-- The bases in order: the interface comes first. -/
def toList (bases : BaseList) : List TypeExpr :=
  bases.interface?.toList ++ bases.primary?.toList

/-- Whether there are no bases. -/
def isEmpty (bases : BaseList) : Bool :=
  bases.interface?.isNone && bases.primary?.isNone

/-- The spellings of the bases, each after a qualifier, with a separator between them. -/
def join (bases : BaseList) (qualifier separator : String) : String :=
  separator.intercalate (bases.toList.map fun base => qualifier ++ base.text)

/-- There are no bases exactly if none is listed. -/
theorem isEmpty_iff (bases : BaseList) : bases.isEmpty = true ↔ bases.toList = [] := by
  obtain ⟨i, p⟩ := bases
  cases i <;> cases p <;> simp [isEmpty, toList]

end BaseList

end SdkHeaders
