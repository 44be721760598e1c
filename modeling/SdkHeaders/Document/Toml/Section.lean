import SdkHeaders.Document.Node

/-!
# Sections of TOML documents

A document is a list of sections, each with a heading and assignments to paths of keys.  The
sections are put together to one table under the rule that what has been declared by one
means is not extended by another.

Main definitions:

- Structure `Section` holds a heading with its assignments.
- Type `Draft` is a tree in the making that remembers how each table came about.
- Definition `assign` adds an assignment, and `assemble` puts sections together.
-/

namespace SdkHeaders.Toml

/-! ## Sections -/

/-- An assignment of a value to a path of keys. -/
structure Assignment where
  /-- The keys in front of the last one. -/
  path : List String
  /-- The last key. -/
  key : String
  /-- The value. -/
  value : Node

/-- What the assignments of a section belong to. -/
inductive Heading where
  /-- The document itself. -/
  | root
  /-- The table at a path. -/
  | table (path : List String) (key : String)
  /-- A new element of the list of tables at a path. -/
  | element (path : List String) (key : String)

/-- A heading with its assignments. -/
structure Section where
  /-- The heading. -/
  heading : Heading
  /-- The assignments in order. -/
  assignments : List Assignment

/-! ## Drafts -/

/-- How a table came about. -/
inductive Origin where
  /-- By a heading of its own. -/
  | heading
  /-- On the way of another heading. -/
  | passing
  /-- On the way of an assignment. -/
  | dotted
  deriving DecidableEq

/-- A tree in the making. -/
inductive Draft where
  /-- A value that is complete. -/
  | closed (node : Node)
  /-- A table that may grow. -/
  | table (origin : Origin) (entries : List (String × Draft))
  /-- A list of tables; the last one comes first. -/
  | elements (reversed : List (List (String × Draft)))

/-- The entries of a table in the making. -/
abbrev Entries := List (String × Draft)

/-- Change the draft under a key; a new key is added at the end. -/
def alter (change : Option Draft → Option Draft) (key : String) : Entries → Option Entries
  | [] => (change none).map fun draft => [(key, draft)]
  | (k, draft) :: rest =>
      if k = key then (change (some draft)).map fun changed => (k, changed) :: rest
      else (alter change key rest).map ((k, draft) :: ·)

/-- Change the table at a path.  Missing tables come about with the given origin.  An
assignment does not pass through a table that has a heading of its own. -/
def descend (origin : Origin) (change : Origin → Entries → Option Entries) :
    List String → Origin → Entries → Option Entries
  | [], here, entries => change here entries
  | key :: path, _, entries =>
      alter
        (fun found =>
          match found with
          | none => (descend origin change path origin []).map (.table origin)
          | some (.table kind inner) =>
              if origin = .dotted ∧ kind = .heading then none
              else (descend origin change path kind inner).map (.table kind)
          | some (.elements (last :: before)) =>
              (descend origin change path .heading last).map fun changed =>
                .elements (changed :: before)
          | some _ => none)
        key entries

/-! ## Assembly -/

/-- Add an assignment to a table.  The last table on its path must have come about by such a
path itself. -/
def assign (entries : Entries) (a : Assignment) : Option Entries :=
  descend .dotted
    (fun here inner =>
      if !a.path.isEmpty && here ≠ .dotted then none
      else
        alter (fun found => if found.isSome then none else some (.closed a.value)) a.key inner)
    a.path .heading entries

/-- Add assignments one after the other. -/
def assignAll (entries : Entries) (assignments : List Assignment) : Option Entries :=
  assignments.foldlM assign entries

/-- Add a section to a document. -/
def addSection (entries : Entries) (s : Section) : Option Entries :=
  match s.heading with
  | .root => assignAll entries s.assignments
  | .table path key =>
      descend .passing
        (fun _ inner =>
          alter
            (fun found =>
              match found with
              | none => (assignAll [] s.assignments).map (.table .heading)
              | some (.table .passing known) =>
                  (assignAll known s.assignments).map (.table .heading)
              | some _ => none)
            key inner)
        path .heading entries
  | .element path key =>
      descend .passing
        (fun _ inner =>
          alter
            (fun found =>
              match found with
              | none => (assignAll [] s.assignments).map fun last => .elements [last]
              | some (.elements before) =>
                  (assignAll [] s.assignments).map fun last => .elements (last :: before)
              | some _ => none)
            key inner)
        path .heading entries

mutual

/-- The value that a draft stands for. -/
def Draft.node : Draft → Node
  | .closed node => node
  | .table _ entries => .table (entryNodes entries)
  | .elements reversed => .list (elementNodes [] reversed)

/-- The entries of a finished table. -/
def entryNodes : Entries → List (String × Node)
  | [] => []
  | (key, draft) :: rest => (key, draft.node) :: entryNodes rest

/-- The elements of a list of tables in front of those already given. -/
def elementNodes (done : List Node) : List Entries → List Node
  | [] => done
  | last :: before => elementNodes (.table (entryNodes last) :: done) before

end

/-- The table of assignments that stand by themselves. -/
def tableOf? (assignments : List Assignment) : Option Node :=
  (assignAll [] assignments).map fun entries => .table (entryNodes entries)

/-- The tree of a document. -/
def assemble? (sections : List Section) : Option Node :=
  (sections.foldlM addSection []).map fun entries => .table (entryNodes entries)

end SdkHeaders.Toml
