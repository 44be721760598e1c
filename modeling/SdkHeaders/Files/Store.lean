import SdkHeaders.Files.Path
import SdkHeaders.Text.NameSet

/-!
# File stores

Files and folders as a value: what stands at each location, and how paths lead to locations.  There
are no links, so that every location is an entry of its own.  An operation fails only if a path
leads nowhere or to an entry of the wrong kind; what else can go wrong is left to disks.

Main results:

- Structure `Store` holds the entries and the working folder.
- Definition `Store.locate` follows a path; every name but the last one has to be a folder.
- Definitions `Store.read`, `Store.write`, `Store.makeFolders` and `Store.remove` are the
  operations.
- Theorems `Store.lookUp?_set_self` and `Store.lookUp?_set_of_ne`: setting an entry changes
  nothing at other locations.
-/

namespace SdkHeaders

/-! ## Entries -/

/-- The names that lead from the root to an entry. -/
abbrev Location := List String

/-- What a file holds. -/
inductive Content where
  /-- A text. -/
  | text (s : String)
  /-- Bytes that are not a text. -/
  | binary
  deriving DecidableEq, Repr

/-- What stands at a location. -/
inductive Entry where
  /-- A folder. -/
  | folder
  /-- A file. -/
  | file (content : Content)
  deriving DecidableEq, Repr

/-- Files and folders with a working folder. -/
structure Store where
  /-- The working folder, from which paths start. -/
  here : Location
  /-- The entries apart from the root. -/
  entries : List (Location × Entry)
  deriving DecidableEq, Repr

namespace Store

/-- A store in which nothing but the folders on the way to the working folder exists. -/
def empty (here : Location) : Store :=
  ⟨here, (List.range here.length).map fun n => (here.take (n + 1), .folder)⟩

/-- The entry at a location.  The root is a folder. -/
def lookUp? (s : Store) (l : Location) : Option Entry :=
  if l = [] then some .folder else s.entries.lookup l

/-- Whether a folder stands at a location. -/
def isFolder (s : Store) (l : Location) : Bool :=
  s.lookUp? l = some .folder

/-- Replace the entry at a location, or add one. -/
def setEntry (l : Location) (e : Entry) : List (Location × Entry) → List (Location × Entry)
  | [] => [(l, e)]
  | known :: rest => if known.1 = l then (l, e) :: rest else known :: setEntry l e rest

/-- The store with an entry at a location. -/
def set (s : Store) (l : Location) (e : Entry) : Store :=
  { s with entries := setEntry l e s.entries }

/-- Setting an entry does not change what is looked up elsewhere. -/
theorem lookup_setEntry (l other : Location) (e : Entry) (entries : List (Location × Entry)) :
    (setEntry l e entries).lookup other =
      if other = l then some e else entries.lookup other := by
  induction entries with
  | nil =>
      by_cases h : other = l
      · simp [setEntry, h]
      · have hb : (other == l) = false := by simpa using h
        simp [setEntry, List.lookup_cons, h, hb]
  | cons known rest ih =>
      obtain ⟨k, v⟩ := known
      unfold setEntry
      by_cases h : k = l
      · subst h
        by_cases ho : other = k
        · simp [ho]
        · have hb : (other == k) = false := by simpa using ho
          simp [List.lookup_cons, ho, hb]
      · simp only [if_neg h, List.lookup_cons, ih]
        by_cases ho : other = k
        · subst ho
          simp [h]
        · have hb : (other == k) = false := by simpa using ho
          simp [hb]

/-- A look-up at the location of a new entry finds it. -/
theorem lookUp?_set_self {s : Store} {l : Location} {e : Entry} (h : l ≠ []) :
    (s.set l e).lookUp? l = some e := by
  simp [lookUp?, set, h, lookup_setEntry]

/-- A look-up at another location finds what it found before. -/
theorem lookUp?_set_of_ne {s : Store} {l other : Location} {e : Entry} (h : other ≠ l) :
    (s.set l e).lookUp? other = s.lookUp? other := by
  simp [lookUp?, set, lookup_setEntry, h]

/-! ## Paths -/

/-- The largest number of bytes of a name. -/
def nameLimit : Nat := 255

/-- Whether the characters can be the name of an entry. -/
def isName (piece : List Char) : Bool :=
  (String.ofList piece).utf8ByteSize ≤ nameLimit

/-- Whether the characters lead upward. -/
def isUpward (piece : List Char) : Bool :=
  piece = ['.', '.']

/-- The location where a path starts. -/
def start (s : Store) (path : String) : Location :=
  if Path.isAbsolute path then [] else s.here

/-- The number of bytes that every path stays below. -/
def pathLimit : Nat := 4096

/-- Whether a path can be looked up at all: it is not empty, it is not too long, and it does not
hold the character that ends paths. -/
def isUsable (path : String) : Bool :=
  path ≠ "" && !path.toList.contains '\x00' && path.utf8ByteSize < pathLimit

/-- Follow one part of a path from a location, which has to be a folder. -/
def follow (s : Store) (l : Location) (piece : List Char) : Option Location :=
  if !s.isFolder l then none
  else if Path.isIdle piece then some l
  else if isUpward piece then some l.dropLast
  else if isName piece then some (l ++ [String.ofList piece])
  else none

/-- The location to which some parts of a path lead from where the path starts. -/
def locateParts (s : Store) (path : String) (parts : List (List Char)) : Option Location :=
  if isUsable path then parts.foldlM s.follow (s.start path) else none

/-- The location that a path leads to, whether or not there is an entry. -/
def locate (s : Store) (path : String) : Option Location :=
  s.locateParts path (Path.pieces path)

/-! ## Operations -/

/-- The text of a file. -/
def read (s : Store) (path : String) : Option String :=
  match (s.locate path).bind s.lookUp? with
  | some (.file (.text t)) => some t
  | _ => none

/-- Put a file at a path, in place of a file that stands there already.  The flag says
whether that was possible. -/
def write (s : Store) (path : String) (content : Content) : Bool × Store :=
  match s.locate path with
  | none => (false, s)
  | some l => if s.isFolder l then (false, s) else (true, s.set l (.file content))

/-- Make a single folder.  The flag says whether a folder is there then; nothing is said if
there is no way to its place. -/
def makeFolder (s : Store) (path : String) : Option (Bool × Store) :=
  (s.locateParts path (Path.properPieces path)).map fun l =>
    match s.lookUp? l with
    | some .folder => (true, s)
    | some (.file _) => (false, s)
    | none => (true, s.set l .folder)

/-- Make the first one of nested folders, which are given from the inside out.  Those around it
are made first if there is no way to its place without them. -/
def makeNested (s : Store) : List String → Bool × Store
  | [] => (true, s)
  | path :: outer =>
      match s.makeFolder path with
      | some made => made
      | none =>
          match s.makeNested outer with
          | (true, made) => (made.makeFolder path).getD (false, made)
          | refused => refused

/-- Make a folder and the folders around it, as far as they are missing.  The flag says
whether that was possible. -/
def makeFolders (s : Store) (path : String) : Bool × Store :=
  if path = "" then (true, s)
  else if isUsable path then s.makeNested (path :: Path.ancestors path)
  else (false, s)

/-- Whether an entry other than `l` itself is below it. -/
def isBelow (l : Location) (entry : Location × Entry) : Bool :=
  l.isPrefixOf entry.1 && entry.1 ≠ l

/-- The store without the entries below a location. -/
def clear (s : Store) (l : Location) : Store :=
  { s with entries := s.entries.filter fun entry => !isBelow l entry }

/-- The store without the entries at a location and below it. -/
def erase (s : Store) (l : Location) : Store :=
  { s with entries := s.entries.filter fun entry => !l.isPrefixOf entry.1 }

/-- Remove a file, or a folder with all that it holds.  A folder is cleared first and then removed
along the same path.  If the path led through what has just been cleared, the cleared folder stays,
which does not count as a failure; if it ends in a single dot, the folder stays, which does.  The
flag says whether it was possible. -/
def remove (s : Store) (path : String) : Bool × Store :=
  match s.locate path with
  | none => (false, s)
  | some l =>
      if l = [] || (s.lookUp? l).isNone then (false, s)
      else if ((s.clear l).locate path).isNone then (true, s.clear l)
      else if (Path.properPieces path).getLast? = some ['.'] then (false, s.clear l)
      else (true, s.erase l)

/-- The paths of the files below a location, in increasing order. -/
def filesBelow (s : Store) (l : Location) : List String :=
  (Text.NameSet.ofList
    ((s.entries.filter fun entry => l.isPrefixOf entry.1 && entry.2 ≠ .folder).map
      fun entry => "/".intercalate (entry.1.drop l.length))).toList

end Store

end SdkHeaders
