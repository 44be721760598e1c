import SdkHeaders.Document.Node
import SdkHeaders.Model.Basic

/-!
# Model files as document trees

Which document trees are model files.  A record is written as a table of its fields or as a
list of their values; fields that are not known are passed over.

Main results:

- Structure `Dialect` holds what notations do differently.
- Definition `fieldsOf` finds the fields of a record.
- Definition `decodeFile` reads a model file from a tree.
- Theorem `value_range_of_decodeFile`: the explicit values of its enumerations have signed 64 bits.
-/

namespace SdkHeaders.Document

/-! ## Dialects -/

/-- What notations do differently. -/
structure Dialect where
  /-- Whether a record written as a list may have more values than fields. -/
  surplus : Bool
  /-- Whether a value can stand for an alternative that has no content of its own. -/
  isUnit : Node → Bool

/-- The dialect of documents that can write the absence of a value. -/
def Dialect.json : Dialect where
  surplus := false
  isUnit := fun node =>
    match node with
    | .null => true
    | _ => false

/-- The dialect of documents without a word for the absence of a value. -/
def Dialect.toml : Dialect where
  surplus := true
  isUnit := fun node =>
    match node with
    | .list [] => true
    | .table [] => true
    | _ => false

/-! ## Records -/

/-- The values of the fields that a record has. -/
abbrev Fields := List (String × Node)

/-- Whether a name occurs more than once among the keys of a table. -/
def isRepeated (entries : List (String × Node)) (name : String) : Bool :=
  1 < (entries.filter fun entry => entry.1 = name).length

/-- Whether an entry that is not among the named fields can be passed over. -/
def isPassable (names : List String) (entry : String × Node) : Bool :=
  names.contains entry.1 || entry.2.isSound

/-- The fields of a record with the given field names.  Entries with other names are passed
over; the values of a list behind those of the fields are not even looked at. -/
def fieldsOf (dialect : Dialect) (names : List String) : Node → Option Fields
  | .table entries =>
      if names.any (isRepeated entries) || !entries.all (isPassable names) then none
      else some entries
  | .list items =>
      if names.length < items.length && !dialect.surplus then none
      else some (names.zip items)
  | _ => none

/-- A field that has to be present. -/
def required {α : Type} (decode : Node → Option α) (name : String) (fields : Fields) :
    Option α :=
  (fields.lookup name).bind decode

/-- A field that stands for a default when it is missing. -/
def defaulted {α : Type} (default : α) (decode : Node → Option α) (name : String)
    (fields : Fields) : Option α :=
  match fields.lookup name with
  | none => some default
  | some node => decode node

/-! ## Values -/

/-- A text. -/
def decodeText : Node → Option String
  | .text s => some s
  | _ => none

/-- A truth value. -/
def decodeFlag : Node → Option Bool
  | .flag b => some b
  | _ => none

/-- A whole number of at most 64 bits. -/
def decodeInteger : Node → Option Int
  | .integer n => if -Int.pow 2 63 ≤ n ∧ n < Int.pow 2 63 then some n else none
  | _ => none

/-- A value or its absence. -/
def decodeOption {α : Type} (decode : Node → Option α) : Node → Option (Option α)
  | .null => some none
  | node => (decode node).map some

/-- Values in order. -/
def decodeList {α : Type} (decode : Node → Option α) : Node → Option (List α)
  | .list items => items.mapM decode
  | _ => none

/-- The class kind of a name. -/
def kindOfText (s : String) : Option ClassKind :=
  [ClassKind.entity, .complex, .container].find? fun kind => kind.text = s

/-- A class kind: its name, or a table from its name to an empty content. -/
def decodeKind (dialect : Dialect) : Node → Option ClassKind
  | .text s => kindOfText s
  | .table [(s, node)] => if dialect.isUnit node then kindOfText s else none
  | _ => none

/-! ## Origins of values -/

/-- A field holds its default or a value that was decoded. -/
theorem eq_default_or_decoded {α : Type} {default x : α} {decode : Node → Option α}
    {name : String} {fields : Fields} (h : defaulted default decode name fields = some x) :
    x = default ∨ ∃ node, decode node = some x := by
  unfold defaulted at h
  split at h
  · cases h
    exact .inl rfl
  · exact .inr ⟨_, h⟩

/-- A value that is present was decoded. -/
theorem exists_decoded_of_decodeOption {α : Type} {decode : Node → Option α} {node : Node} {x : α}
    (h : decodeOption decode node = some (some x)) : ∃ inner, decode inner = some x := by
  unfold decodeOption at h
  split at h
  · cases h
  · obtain ⟨y, hy, heq⟩ := Option.map_eq_some_iff.mp h
    cases heq
    exact ⟨_, hy⟩

/-- Each of some values in order was decoded. -/
theorem exists_decoded_of_mem {α : Type} {decode : Node → Option α} {node : Node} {xs : List α}
    (h : decodeList decode node = some xs) {x : α} (hx : x ∈ xs) :
    ∃ item, decode item = some x := by
  unfold decodeList at h
  split at h
  · next items =>
      induction items generalizing xs with
      | nil =>
          cases h
          cases hx
      | cons item rest ih =>
          rw [List.mapM_cons] at h
          obtain ⟨first, hfirst, h⟩ := Option.bind_eq_some_iff.mp h
          obtain ⟨others, hothers, h⟩ := Option.bind_eq_some_iff.mp h
          cases h
          rcases List.mem_cons.mp hx with rfl | hx
          · exact ⟨item, hfirst⟩
          · exact ih hx hothers
  · cases h

/-- A whole number that was decoded has signed 64 bits. -/
theorem decodeInteger_range {node : Node} {n : Int} (h : decodeInteger node = some n) :
    -Int.pow 2 63 ≤ n ∧ n < Int.pow 2 63 := by
  unfold decodeInteger at h
  split at h
  · split at h
    · next hrange =>
        cases h
        exact hrange
    · cases h
  · cases h

/-! ## Model files -/

/-- A member of an enumeration. -/
def decodeMember (dialect : Dialect) (node : Node) : Option EnumMember := do
  let fields ← fieldsOf dialect ["name", "value"] node
  return {
    name := ← required decodeText "name" fields
    value := ← defaulted none (decodeOption decodeInteger) "value" fields }

/-- An enumeration. -/
def decodeEnum (dialect : Dialect) (node : Node) : Option EnumDecl := do
  let fields ← fieldsOf dialect ["name", "flags", "members"] node
  return {
    name := ← required decodeText "name" fields
    flags := ← defaulted false decodeFlag "flags" fields
    members := ← defaulted [] (decodeList (decodeMember dialect)) "members" fields }

/-- A property, not yet owned by a class. -/
def decodeProperty (dialect : Dialect) (node : Node) : Option Property := do
  let fields ←
    fieldsOf dialect ["name", "type", "collection", "navigation", "description"] node
  return {
    name := ← required decodeText "name" fields
    type := ← required decodeText "type" fields
    collection := ← defaulted false decodeFlag "collection" fields
    navigation := ← defaulted false decodeFlag "navigation" fields
    description := ← defaulted none (decodeOption decodeText) "description" fields
    owner := "" }

/-- A class. -/
def decodeClass (dialect : Dialect) (node : Node) : Option ClassDecl := do
  let fields ← fieldsOf dialect ["name", "kind", "base", "properties"] node
  return {
    name := ← required decodeText "name" fields
    kind := ← defaulted .entity (decodeKind dialect) "kind" fields
    base := ← defaulted none (decodeOption decodeText) "base" fields
    properties := ← defaulted [] (decodeList (decodeProperty dialect)) "properties" fields }

/-- A model file. -/
def decodeFile (dialect : Dialect) (node : Node) : Option ModelFile := do
  let fields ← fieldsOf dialect ["namespace", "enums", "classes"] node
  return {
    space := ← required decodeText "namespace" fields
    enums := ← defaulted [] (decodeList (decodeEnum dialect)) "enums" fields
    classes := ← defaulted [] (decodeList (decodeClass dialect)) "classes" fields }

/-! ## Values of enumerations -/

/-- The explicit value of a member has signed 64 bits. -/
theorem value_range_of_decodeMember {dialect : Dialect} {node : Node} {m : EnumMember}
    (h : decodeMember dialect node = some m) {x : Int} (hx : m.value = some x) :
    -Int.pow 2 63 ≤ x ∧ x < Int.pow 2 63 := by
  obtain ⟨fields, -, h⟩ := Option.bind_eq_some_iff.mp h
  obtain ⟨name, -, h⟩ := Option.bind_eq_some_iff.mp h
  obtain ⟨value, hvalue, h⟩ := Option.bind_eq_some_iff.mp h
  cases h
  subst hx
  rcases eq_default_or_decoded hvalue with hdefault | ⟨inner, hinner⟩
  · cases hdefault
  · obtain ⟨number, hnumber⟩ := exists_decoded_of_decodeOption hinner
    exact decodeInteger_range hnumber

/-- The explicit values of an enumeration have signed 64 bits. -/
theorem value_range_of_decodeEnum {dialect : Dialect} {node : Node} {e : EnumDecl}
    (h : decodeEnum dialect node = some e) {m : EnumMember} (hm : m ∈ e.members) {x : Int}
    (hx : m.value = some x) : -Int.pow 2 63 ≤ x ∧ x < Int.pow 2 63 := by
  obtain ⟨fields, -, h⟩ := Option.bind_eq_some_iff.mp h
  obtain ⟨name, -, h⟩ := Option.bind_eq_some_iff.mp h
  obtain ⟨flags, -, h⟩ := Option.bind_eq_some_iff.mp h
  obtain ⟨members, hmembers, h⟩ := Option.bind_eq_some_iff.mp h
  cases h
  rcases eq_default_or_decoded hmembers with rfl | ⟨inner, hinner⟩
  · cases hm
  · obtain ⟨item, hitem⟩ := exists_decoded_of_mem hinner hm
    exact value_range_of_decodeMember hitem hx

/-- The explicit values of the enumerations of a model file have signed 64 bits. -/
theorem value_range_of_decodeFile {dialect : Dialect} {node : Node} {file : ModelFile}
    (h : decodeFile dialect node = some file) {e : EnumDecl} (he : e ∈ file.enums)
    {m : EnumMember} (hm : m ∈ e.members) {x : Int} (hx : m.value = some x) :
    -Int.pow 2 63 ≤ x ∧ x < Int.pow 2 63 := by
  obtain ⟨fields, -, h⟩ := Option.bind_eq_some_iff.mp h
  obtain ⟨space, -, h⟩ := Option.bind_eq_some_iff.mp h
  obtain ⟨enums, henums, h⟩ := Option.bind_eq_some_iff.mp h
  obtain ⟨classes, -, h⟩ := Option.bind_eq_some_iff.mp h
  cases h
  rcases eq_default_or_decoded henums with rfl | ⟨inner, hinner⟩
  · cases he
  · obtain ⟨item, hitem⟩ := exists_decoded_of_mem hinner he
    exact value_range_of_decodeEnum hitem hm hx

end SdkHeaders.Document
