import SdkHeaders.Files.Access

/-!
# Disks

Files and folders on a disk, where any operation may go wrong.  What goes wrong is settled
beforehand, one operation after the other, so that every run of a program is a run on some disk.

Main definitions:

- Type `Mishap` lists what can go wrong with an operation.
- Structure `Disk` is a store together with what goes wrong next.
- Definition `Disk.operate` does one operation, well or not.
-/

namespace SdkHeaders

/-- What goes wrong with an operation. -/
inductive Mishap where
  /-- It is refused, and nothing happens. -/
  | refused
  /-- Folders are made from the outside in, and it ends before the innermost ones: the folder
  itself and this many around it. -/
  | halted (inner : Nat)
  /-- A file has been emptied or written in part, and is left with this content. -/
  | torn (rest : Content)
  deriving DecidableEq, Repr

/-- Files and folders with what goes wrong.  Each operation takes one member of the list, and all
goes well behind its end. -/
structure Disk where
  /-- What stands on the disk. -/
  store : Store
  /-- What goes wrong with the next operations, if anything. -/
  mishaps : List (Option Mishap)
  deriving DecidableEq, Repr

/-- Make some of the folders around a path, but not the innermost ones. -/
def Store.makeOuter (s : Store) (path : String) (inner : Nat) : Store :=
  if isUsable path then (s.makeNested ((Path.ancestors path).drop inner)).2 else s

namespace Disk

/-- A disk on which nothing goes wrong. -/
def sound (s : Store) : Disk :=
  ⟨s, []⟩

/-- Do an operation on the store, which is another one if something goes wrong. -/
def operate {α : Type} (d : Disk) (well : Store → α × Store) (ill : Mishap → Store → α × Store) :
    α × Disk :=
  let done := d.mishaps.head?.join.elim well ill d.store
  (done.1, ⟨done.2, d.mishaps.tail⟩)

/-- The text of a file. -/
def read (d : Disk) (path : String) : Option String × Disk :=
  d.operate (fun s => (s.read path, s)) fun _ s => (none, s)

/-- Make a folder and the folders around it, as far as they are missing.  There is nothing to do
for the empty path. -/
def makeFolders (d : Disk) (path : String) : Bool × Disk :=
  if path = "" then (true, d)
  else d.operate (·.makeFolders path) fun mishap s =>
    match mishap with
    | .halted inner => (false, s.makeOuter path inner)
    | _ => (false, s)

/-- Write a text to a file. -/
def write (d : Disk) (path t : String) : Bool × Disk :=
  d.operate (·.write path (.text t)) fun mishap s =>
    match mishap with
    | .torn rest => (false, (s.write path rest).2)
    | _ => (false, s)

instance : FileAccess (StateM Disk) where
  readText path := fun d => d.read path
  makeFolders path := fun d => d.makeFolders path
  writeText path t := fun d => d.write path t

end Disk

end SdkHeaders
