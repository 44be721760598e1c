import Mathlib.Data.List.Basic
import Mathlib.Data.List.Induction
import Mathlib.Data.List.TakeWhile
import SdkHeaders.Files.Store

/-!
# Growing stores

What making folders and writing files do to a store: folders stay, and apart from the files
that are written nothing changes but that folders appear where nothing stood.

Main results:

- Theorem `Path.pieces_join`: a file name is the last part of its path.
- Relation `Store.Grown` says how a store may differ from an earlier one, and theorem
  `Store.Grown.locate` that paths lead to the same locations in it.
- Theorems `Store.makeFolders_grown` and `Store.write_grown`: the operations grow a store.
- Structure `Store.Closed` says that everything stands in a folder, and theorem
  `Store.Grown.locate_of_closed` that a path that does not lead upward has always led to what
  stands at its location.
- Theorems `Store.closed_empty`, `Store.Closed.makeFolders`, `Store.Closed.write` and
  `Store.Closed.remove`: the operations keep a store closed.
-/

namespace SdkHeaders

/-! ## Parts of paths -/

namespace Text

variable {separator : Char}

theorem splitAtChar_ne_nil (cs : List Char) : splitAtChar separator cs ≠ [] := by
  cases cs with
  | nil => simp [splitAtChar]
  | cons c rest =>
      unfold splitAtChar
      split
      · simp
      · split <;> simp

theorem splitAtChar_of_not_mem {cs : List Char} (h : separator ∉ cs) :
    splitAtChar separator cs = [cs] := by
  induction cs with
  | nil => rfl
  | cons c rest ih =>
      simp only [List.mem_cons, not_or] at h
      rw [splitAtChar, if_neg fun heq => h.1 heq.symm, ih h.2]

/-- The parts around a separator are those on its left and those on its right. -/
theorem splitAtChar_append (xs ys : List Char) :
    splitAtChar separator (xs ++ separator :: ys) =
      splitAtChar separator xs ++ splitAtChar separator ys := by
  induction xs with
  | nil => simp [splitAtChar]
  | cons c rest ih =>
      rw [List.cons_append, splitAtChar, splitAtChar, ih]
      by_cases hc : c = separator
      · simp [hc]
      · rw [if_neg hc, if_neg hc]
        cases hparts : splitAtChar separator rest with
        | nil => exact absurd hparts (splitAtChar_ne_nil rest)
        | cons part parts => rfl

end Text

namespace Path

theorem isAbsolute_of_not_mem {name : String} (h : '/' ∉ name.toList) :
    isAbsolute name = false := by
  cases hcs : name.toList with
  | nil => simp [isAbsolute, hcs]
  | cons c rest =>
      have hc : c ≠ '/' := by
        rintro rfl
        exact h (hcs ▸ List.mem_cons_self)
      simp [isAbsolute, hcs, hc]

/-- The parts that lead into a folder: those of its path, perhaps without an empty one after its
last slash.  Nothing has to be followed into the empty path. -/
def WayInto (folder : String) (parts : List (List Char)) : Prop :=
  if folder = "" then parts = [] else pieces folder = parts ∨ pieces folder = parts ++ [[]]

theorem WayInto.subset {folder : String} {parts : List (List Char)} (h : WayInto folder parts) :
    parts ⊆ pieces folder := by
  unfold WayInto at h
  split at h
  · exact h ▸ List.nil_subset _
  · rcases h with h | h
    · exact h ▸ List.Subset.refl _
    · exact h ▸ List.subset_append_left _ _

/-- The names without slashes are the last parts of their paths in a folder; the parts before them
lead into the folder. -/
theorem pieces_join (folder : String) :
    ∃ parts, WayInto folder parts ∧ ∀ name : String, '/' ∉ name.toList →
      pieces (join folder name) = parts ++ [name.toList] := by
  unfold join WayInto
  by_cases hempty : folder = ""
  · refine ⟨[], by simp [hempty], fun name h => ?_⟩
    rw [isAbsolute_of_not_mem h, if_neg Bool.false_ne_true, if_pos hempty]
    exact Text.splitAtChar_of_not_mem h
  · simp only [hempty, if_false]
    by_cases hlast : folder.toList.getLast? = some '/'
    · obtain ⟨before, hbefore⟩ := List.getLast?_eq_some_iff.mp hlast
      refine ⟨Text.splitAtChar '/' before, .inr ?_, fun name h => ?_⟩
      · rw [pieces, hbefore, Text.splitAtChar_append]
        rfl
      · rw [isAbsolute_of_not_mem h, if_neg Bool.false_ne_true, if_pos hlast, pieces,
          String.toList_append, hbefore, List.append_assoc, List.singleton_append,
          Text.splitAtChar_append, Text.splitAtChar_of_not_mem h]
    · refine ⟨pieces folder, .inl rfl, fun name h => ?_⟩
      have hslash : "/".toList = ['/'] := rfl
      rw [isAbsolute_of_not_mem h, if_neg Bool.false_ne_true, if_neg hlast, pieces,
        String.toList_append, String.toList_append, hslash, List.append_assoc,
        List.singleton_append, Text.splitAtChar_append, Text.splitAtChar_of_not_mem h]
      rfl

end Path

namespace Store

variable {s t u : Store} {touched more : List Location} {path : String}

/-! ## Following paths -/

/-- A part that can be the name of a file: it neither names nothing nor leads upward. -/
def IsPlain (piece : List Char) : Prop :=
  Path.isIdle piece = false ∧ isUpward piece = false

section Follow

variable {l m : Location} {piece : List Char}

theorem isFolder_iff : s.isFolder l = true ↔ s.lookUp? l = some .folder := by
  rw [isFolder, decide_eq_true_eq]

/-- A part of a path leads from a folder to itself, to the folder around it, or to what stands under
a name in it. -/
theorem follow_eq_some_iff :
    s.follow l piece = some m ↔ s.isFolder l = true ∧
      ((Path.isIdle piece = true ∧ m = l) ∨
        (Path.isIdle piece = false ∧ isUpward piece = true ∧ m = l.dropLast) ∨
        (IsPlain piece ∧ isName piece = true ∧ m = l ++ [String.ofList piece])) := by
  unfold follow IsPlain
  cases s.isFolder l <;> cases Path.isIdle piece <;> cases isUpward piece <;>
    cases isName piece <;> simp [eq_comm]

theorem isFolder_of_follow (h : s.follow l piece = some m) : s.isFolder l = true :=
  (follow_eq_some_iff.mp h).1

/-- Where a part of a path leads to depends on the store only in that it starts at a folder. -/
theorem follow_congr (h : s.follow l piece = some m) (hfolder : t.isFolder l = true) :
    t.follow l piece = some m :=
  follow_eq_some_iff.mpr ⟨hfolder, (follow_eq_some_iff.mp h).2⟩

theorem eq_append_of_follow (hplain : IsPlain piece) (h : s.follow l piece = some m) :
    m = l ++ [String.ofList piece] := by
  rcases follow_eq_some_iff.mp h with ⟨-, ⟨hidle, -⟩ | ⟨-, hupward, -⟩ | ⟨-, -, hm⟩⟩
  · cases hidle.symm.trans hplain.1
  · cases hupward.symm.trans hplain.2
  · exact hm

theorem prefix_of_follow (hupward : isUpward piece = false) (h : s.follow l piece = some m) :
    l <+: m := by
  rcases follow_eq_some_iff.mp h with ⟨-, ⟨-, rfl⟩ | ⟨-, hother, -⟩ | ⟨-, -, rfl⟩⟩
  · exact List.prefix_rfl
  · cases hupward.symm.trans hother
  · exact List.prefix_append _ _

end Follow

theorem locate_eq_some_iff {l : Location} :
    s.locate path = some l ↔
      isUsable path = true ∧ (Path.pieces path).foldlM s.follow (s.start path) = some l := by
  unfold locate locateParts
  split
  · next h => simp [h]
  · next h => simp [h]

/-- A path leads to where its last part leads from where the parts before it lead. -/
theorem locate_eq_some_iff_of_pieces {parts : List (List Char)} {name : List Char}
    (hpieces : Path.pieces path = parts ++ [name]) {l : Location} :
    s.locate path = some l ↔
      isUsable path = true ∧
        ∃ outer, parts.foldlM s.follow (s.start path) = some outer ∧
          s.follow outer name = some l := by
  rw [locate_eq_some_iff, hpieces, List.foldlM_append]
  refine and_congr_right fun _ => ?_
  simp only [List.foldlM_cons, List.foldlM_nil, bind_pure]
  exact Option.bind_eq_some_iff

/-- A path in a folder leads to the place of its name in the location of the folder. -/
theorem locate_join_eq_some_iff (folder : String) {name : String} (hslash : '/' ∉ name.toList) :
    ∃ parts, Path.WayInto folder parts ∧ ∀ (s : Store) (l : Location),
      s.locate (Path.join folder name) = some l ↔
        isUsable (Path.join folder name) = true ∧
          ∃ outer, parts.foldlM s.follow (s.start (Path.join folder name)) = some outer ∧
            s.follow outer name.toList = some l := by
  obtain ⟨parts, hway, hpieces⟩ := Path.pieces_join folder
  exact ⟨parts, hway, fun s l => locate_eq_some_iff_of_pieces (hpieces name hslash)⟩

/-- A path in a folder leads to a location that ends in the name. -/
theorem exists_append_of_locate {folder name : String} (hslash : '/' ∉ name.toList)
    (hplain : IsPlain name.toList) {l : Location}
    (h : s.locate (Path.join folder name) = some l) : ∃ outer, l = outer ++ [name] := by
  obtain ⟨parts, -, hlocate⟩ := locate_join_eq_some_iff folder hslash
  obtain ⟨-, outer, -, hlast⟩ := (hlocate s l).mp h
  refine ⟨outer, ?_⟩
  rw [eq_append_of_follow hplain hlast, String.ofList_toList]

/-- A text is read exactly from a file that holds it. -/
theorem read_eq_some_iff {text : String} :
    s.read path = some text ↔
      ∃ l, s.locate path = some l ∧ s.lookUp? l = some (.file (.text text)) := by
  unfold read
  cases hlocate : s.locate path with
  | none => simp
  | some l =>
      rw [Option.bind_some]
      split
      · next other hother => simp [hother, eq_comm]
      · next hother => simpa using hother text

/-! ## Growth -/

/-- A store has grown into another one: its folders are still there, and apart from the touched
locations nothing has changed but that folders stand where nothing stood. -/
structure Grown (touched : List Location) (s t : Store) : Prop where
  here : t.here = s.here
  folders : ∀ l, s.lookUp? l = some .folder → t.lookUp? l = some .folder
  elsewhere : ∀ l, l ∉ touched →
    t.lookUp? l = s.lookUp? l ∨ (s.lookUp? l = none ∧ t.lookUp? l = some .folder)

namespace Grown

theorem refl (s : Store) (touched : List Location) : Grown touched s s :=
  ⟨rfl, fun _ h => h, fun _ _ => Or.inl rfl⟩

theorem trans (h : Grown touched s t) (h' : Grown more t u) : Grown (touched ++ more) s u where
  here := h'.here.trans h.here
  folders l hl := h'.folders l (h.folders l hl)
  elsewhere := by
    intro l hl
    rw [List.mem_append, not_or] at hl
    rcases h'.elsewhere l hl.2 with heq | ⟨hnone, hfolder⟩
    · rw [heq]
      exact h.elsewhere l hl.1
    · rcases h.elsewhere l hl.1 with heq | ⟨-, hother⟩
      · exact Or.inr ⟨heq ▸ hnone, hfolder⟩
      · rw [hnone] at hother
        cases hother

/-- A file stands at an untouched location exactly if it stood there before. -/
theorem lookUp?_file_iff (h : Grown touched s t) {l : Location} (hl : l ∉ touched)
    {content : Content} :
    t.lookUp? l = some (.file content) ↔ s.lookUp? l = some (.file content) := by
  rcases h.elsewhere l hl with heq | ⟨hnone, hfolder⟩
  · rw [heq]
  · simp [hnone, hfolder]

theorem isFolder (h : Grown touched s t) {l : Location} (hl : s.isFolder l = true) :
    t.isFolder l = true :=
  isFolder_iff.mpr (h.folders l (isFolder_iff.mp hl))

theorem foldlM_follow (h : Grown touched s t) {parts : List (List Char)} {l m : Location}
    (hfollow : parts.foldlM s.follow l = some m) : parts.foldlM t.follow l = some m := by
  induction parts generalizing l with
  | nil => exact hfollow
  | cons piece rest ih =>
      rw [List.foldlM_cons] at hfollow ⊢
      obtain ⟨next, hnext, hrest⟩ := Option.bind_eq_some_iff.mp hfollow
      have hfirst := follow_congr hnext (h.isFolder (isFolder_of_follow hnext))
      exact Option.bind_eq_some_iff.mpr ⟨next, hfirst, ih hrest⟩

theorem start (h : Grown touched s t) (path : String) : t.start path = s.start path := by
  unfold Store.start
  rw [h.here]

/-- A path leads to the same location. -/
theorem locate (h : Grown touched s t) {l : Location} (hlocate : s.locate path = some l) :
    t.locate path = some l := by
  obtain ⟨husable, hfollow⟩ := locate_eq_some_iff.mp hlocate
  rw [← h.start] at hfollow
  exact locate_eq_some_iff.mpr ⟨husable, h.foldlM_follow hfollow⟩

end Grown

/-! ## Operations -/

/-- A folder that is made where nothing stands grows the store. -/
theorem set_folder_grown {l : Location} (h : s.lookUp? l = none) :
    Grown [] s (s.set l .folder) := by
  have hroot : l ≠ [] := by
    rintro rfl
    simp [lookUp?] at h
  have hset : ∀ other, (s.set l .folder).lookUp? other = s.lookUp? other ∨
      (s.lookUp? other = none ∧ (s.set l .folder).lookUp? other = some .folder) := by
    intro other
    by_cases heq : other = l
    · rw [heq]
      exact Or.inr ⟨h, lookUp?_set_self hroot⟩
    · exact Or.inl (lookUp?_set_of_ne heq)
  refine ⟨rfl, fun other hother => ?_, fun other _ => hset other⟩
  rcases hset other with heq | ⟨-, hfolder⟩
  · rw [heq, hother]
  · exact hfolder

theorem makeFolder_grown {made : Bool × Store} (h : s.makeFolder path = some made) :
    Grown [] s made.2 := by
  obtain ⟨l, -, rfl⟩ := Option.map_eq_some_iff.mp h
  cases hentry : s.lookUp? l with
  | none => exact set_folder_grown hentry
  | some entry =>
      cases entry with
      | folder => exact .refl s []
      | file content => exact .refl s []

/-- The first one of nested folders is made at once, or after those around it, or not at all. -/
theorem makeNested_cons_cases (s : Store) (path : String) (outer : List String) :
    s.makeFolder path = some (s.makeNested (path :: outer)) ∨
    (s.makeFolder path = none ∧ (s.makeNested outer).1 = true ∧
      (s.makeNested outer).2.makeFolder path = some (s.makeNested (path :: outer))) ∨
    (s.makeFolder path = none ∧
      ((s.makeNested outer).1 = true → (s.makeNested outer).2.makeFolder path = none) ∧
      s.makeNested (path :: outer) = (false, (s.makeNested outer).2)) := by
  rw [makeNested]
  cases hmade : s.makeFolder path with
  | some made => exact .inl rfl
  | none =>
      rcases s.makeNested outer with ⟨ready, middle⟩
      cases ready with
      | false => exact .inr (.inr ⟨rfl, nofun, rfl⟩)
      | true =>
          dsimp only
          cases middle.makeFolder path with
          | some last => exact .inr (.inl ⟨rfl, rfl, rfl⟩)
          | none => exact .inr (.inr ⟨rfl, fun _ => rfl, rfl⟩)

theorem makeNested_grown (s : Store) (paths : List String) :
    Grown [] s (s.makeNested paths).2 := by
  induction paths with
  | nil => exact .refl s []
  | cons path outer ih =>
      rcases makeNested_cons_cases s path outer with hmade | ⟨-, -, hmade⟩ | ⟨-, -, hrefused⟩
      · exact makeFolder_grown hmade
      · exact ih.trans (makeFolder_grown hmade)
      · rw [hrefused]
        exact ih

/-- Making a folder and the folders around it grows a store. -/
theorem makeFolders_grown (s : Store) (path : String) : Grown [] s (s.makeFolders path).2 := by
  unfold makeFolders
  split
  · exact .refl s []
  · split
    · exact makeNested_grown s _
    · exact .refl s []

theorem write_eq_true_iff {content : Content} :
    s.write path content = (true, t) ↔
      ∃ l, s.locate path = some l ∧ s.lookUp? l ≠ some .folder ∧ s.set l (.file content) = t := by
  unfold write
  cases hlocate : s.locate path with
  | none => simp
  | some l =>
      cases hfolder : s.isFolder l with
      | true => simp [hfolder, isFolder_iff.mp hfolder]
      | false =>
          have hne : s.lookUp? l ≠ some .folder := fun h => by
            simp [isFolder_iff.mpr h] at hfolder
          simp [hfolder, hne]

/-- A file that cannot be written leaves a store alone. -/
theorem write_eq_false {content : Content} (h : s.write path content = (false, t)) : t = s := by
  unfold write at h
  split at h
  · exact (Prod.mk.inj h).2.symm
  · split at h
    · exact (Prod.mk.inj h).2.symm
    · cases h

/-- Writing a file grows a store at the location of the file, where it stands afterwards. -/
theorem write_grown {content : Content} (h : s.write path content = (true, t)) :
    ∃ l, Grown [l] s t ∧ t.locate path = some l ∧ t.lookUp? l = some (.file content) := by
  obtain ⟨l, hlocate, hfolder, rfl⟩ := write_eq_true_iff.mp h
  have hroot : l ≠ [] := by
    rintro rfl
    exact hfolder (by simp [lookUp?])
  have hgrown : Grown [l] s (s.set l (.file content)) := by
    refine ⟨rfl, ?_, ?_⟩
    · intro other hother
      have hne : other ≠ l := fun heq => hfolder (heq ▸ hother)
      rw [lookUp?_set_of_ne hne, hother]
    · intro other hother
      exact Or.inl (lookUp?_set_of_ne (by simpa using hother))
  exact ⟨l, hgrown, hgrown.locate hlocate, lookUp?_set_self hroot⟩

/-! ## Closed stores -/

/-- Everything in a store stands in a folder. -/
def Closed (s : Store) : Prop :=
  ∀ l name entry, s.lookUp? (l ++ [name]) = some entry → s.lookUp? l = some .folder

namespace Closed

theorem of_isPrefix (h : s.Closed) {l m : Location} (hpre : l <+: m)
    (hm : s.lookUp? m = some .folder) : s.lookUp? l = some .folder := by
  obtain ⟨rest, rfl⟩ := hpre
  induction rest using List.reverseRecOn with
  | nil => simpa using hm
  | append_singleton rest name ih =>
      rw [← List.append_assoc] at hm
      exact ih (h _ _ _ hm)

/-- If parts that do not lead upward lead to what was a folder before a store grew, they led
there already. -/
theorem foldlM_follow (hclosed : s.Closed) {parts : List (List Char)}
    (hupward : ∀ piece ∈ parts, isUpward piece = false) {l m : Location}
    (h : parts.foldlM t.follow l = some m) (hm : s.lookUp? m = some .folder) :
    parts.foldlM s.follow l = some m ∧ l <+: m := by
  induction parts generalizing l with
  | nil =>
      cases h
      exact ⟨rfl, List.prefix_rfl⟩
  | cons piece rest ih =>
      rw [List.forall_mem_cons] at hupward
      rw [List.foldlM_cons] at h ⊢
      obtain ⟨next, hnext, hrest⟩ := Option.bind_eq_some_iff.mp h
      -- The rest leads to what was a folder, so everything on the way to it was one as well.
      obtain ⟨hagain, hpre⟩ := ih hupward.2 hrest
      have hall : l <+: m := (prefix_of_follow hupward.1 hnext).trans hpre
      have hstart := isFolder_iff.mpr (hclosed.of_isPrefix hall hm)
      exact ⟨Option.bind_eq_some_iff.mpr ⟨next, follow_congr hnext hstart, hagain⟩, hall⟩

end Closed

/-- If a path that does not lead upward leads to something that stood there before a store grew,
it led there already. -/
theorem Grown.locate_of_closed (hgrown : Grown touched s t) (hclosed : s.Closed)
    {folder name : String} (hslash : '/' ∉ name.toList) (hplain : IsPlain name.toList)
    (hupward : ∀ piece ∈ Path.pieces folder, isUpward piece = false) {l : Location}
    (hlocate : t.locate (Path.join folder name) = some l) {entry : Entry}
    (hentry : s.lookUp? l = some entry) : s.locate (Path.join folder name) = some l := by
  obtain ⟨parts, hway, hiff⟩ := locate_join_eq_some_iff folder hslash
  obtain ⟨husable, outer, houter, hlast⟩ := (hiff t l).mp hlocate
  have hl := eq_append_of_follow hplain hlast
  have hfolder : s.lookUp? outer = some .folder := hclosed _ _ _ (hl ▸ hentry)
  rw [hgrown.start] at houter
  obtain ⟨houter', -⟩ :=
    hclosed.foldlM_follow (fun piece hpiece => hupward piece (hway.subset hpiece)) houter hfolder
  exact (hiff s l).mpr ⟨husable, outer, houter', follow_congr hlast (isFolder_iff.mpr hfolder)⟩

/-! ## Operations on closed stores -/

private theorem mem_of_lookup {entries : List (Location × Entry)} {l : Location} {entry : Entry}
    (h : entries.lookup l = some entry) : (l, entry) ∈ entries := by
  obtain ⟨before, after, rfl, -⟩ := List.lookup_eq_some_iff.mp h
  exact List.mem_append_right before List.mem_cons_self

theorem lookUp?_empty_iff {here l : Location} {entry : Entry} :
    (empty here).lookUp? l = some entry ↔ l <+: here ∧ entry = .folder := by
  have hmem : ∀ l e, (l, e) ∈ (empty here).entries ↔ (l ≠ [] ∧ l <+: here) ∧ e = .folder := by
    intro l e
    simp only [empty, List.mem_map, List.mem_range, Prod.mk.injEq]
    constructor
    · rintro ⟨n, hn, rfl, rfl⟩
      refine ⟨⟨?_, List.take_prefix _ _⟩, rfl⟩
      cases here with
      | nil => simp at hn
      | cons first rest => simp
    · rintro ⟨⟨hne, hpre⟩, rfl⟩
      have hpos : 0 < l.length := List.length_pos_iff.mpr hne
      have hle := hpre.length_le
      refine ⟨l.length - 1, by omega, ?_, rfl⟩
      rw [show l.length - 1 + 1 = l.length by omega]
      exact (List.prefix_iff_eq_take.mp hpre).symm
  unfold lookUp?
  split
  · next hroot =>
      subst hroot
      simp [eq_comm]
  · next hroot =>
      constructor
      · intro h
        obtain ⟨⟨-, hpre⟩, hentry⟩ := (hmem l entry).mp (mem_of_lookup h)
        exact ⟨hpre, hentry⟩
      · rintro ⟨hpre, rfl⟩
        cases hlookup : (empty here).entries.lookup l with
        | none =>
            have hnone := List.lookup_eq_none_iff.mp hlookup (l, .folder)
              ((hmem l .folder).mpr ⟨⟨hroot, hpre⟩, rfl⟩)
            simp at hnone
        | some other =>
            rw [((hmem l other).mp (mem_of_lookup hlookup)).2]

/-- The folders on the way to a working folder stand in each other. -/
theorem closed_empty (here : Location) : (empty here).Closed := by
  intro l name entry h
  rw [lookUp?_empty_iff] at h ⊢
  exact ⟨(List.prefix_append l [name]).trans h.1, rfl⟩

namespace Closed

theorem follow_inFolder (h : s.Closed) {l m : Location} {piece : List Char}
    (hfollow : s.follow l piece = some m) {outer : Location} {name : String}
    (hm : m = outer ++ [name]) : s.lookUp? outer = some .folder := by
  have hstart := isFolder_iff.mp (isFolder_of_follow hfollow)
  have hpre : ∀ other, other ++ [name] <+: l → s.lookUp? other = some .folder :=
    fun other hother => h.of_isPrefix ((List.prefix_append other [name]).trans hother) hstart
  rcases (follow_eq_some_iff.mp hfollow).2 with ⟨-, hsame⟩ | ⟨-, -, hup⟩ | ⟨-, -, happend⟩
  · exact hpre outer ((hm.symm.trans hsame) ▸ List.prefix_rfl)
  · exact hpre outer ((hm.symm.trans hup) ▸ List.dropLast_prefix l)
  · obtain ⟨rfl, -⟩ := List.append_inj' (hm.symm.trans happend) rfl
    exact hstart

/-- Parts of a path lead to a place in a folder. -/
theorem foldlM_inFolder (h : s.Closed) {parts : List (List Char)} (hne : parts ≠ [])
    {l : Location} {outer : Location} {name : String}
    (hfollow : parts.foldlM s.follow l = some (outer ++ [name])) :
    s.lookUp? outer = some .folder := by
  obtain ⟨before, last, rfl⟩ := (List.eq_nil_or_concat' parts).resolve_left hne
  rw [List.foldlM_append] at hfollow
  obtain ⟨m, -, hlast⟩ := Option.bind_eq_some_iff.mp hfollow
  rw [List.foldlM_cons] at hlast
  obtain ⟨next, hnext, hend⟩ := Option.bind_eq_some_iff.mp hlast
  cases hend
  exact h.follow_inFolder hnext rfl

/-- An entry that is set in a folder, and not in place of a folder unless it is one, keeps a store
closed. -/
theorem set (h : s.Closed) {l : Location} {entry : Entry}
    (hfolder : s.lookUp? l = some .folder → entry = .folder)
    (hinFolder : ∀ outer name, l = outer ++ [name] → s.lookUp? outer = some .folder) :
    (s.set l entry).Closed := by
  intro m name other hother
  have hm : s.lookUp? m = some .folder := by
    by_cases heq : m ++ [name] = l
    · exact hinFolder m name heq.symm
    · rw [lookUp?_set_of_ne heq] at hother
      exact h m name other hother
  by_cases heq : m = l
  · subst heq
    rw [hfolder hm]
    by_cases hroot : m = []
    · simp [lookUp?, hroot]
    · exact lookUp?_set_self hroot
  · rw [lookUp?_set_of_ne heq, hm]

theorem write (h : s.Closed) (path : String) (content : Content) :
    (s.write path content).2.Closed := by
  rcases hwrite : s.write path content with ⟨done, t⟩
  cases done with
  | true =>
      obtain ⟨l, hlocate, hfolder, rfl⟩ := write_eq_true_iff.mp hwrite
      refine h.set (fun heq => absurd heq hfolder) ?_
      rintro outer name rfl
      exact h.foldlM_inFolder (Text.splitAtChar_ne_nil _) (locate_eq_some_iff.mp hlocate).2
  | false =>
      exact write_eq_false hwrite ▸ h

end Closed

theorem isAbsolute_of_properPieces_eq_nil (hne : path ≠ "") (h : Path.properPieces path = []) :
    Path.isAbsolute path = true := by
  have hempty : ∀ piece ∈ Path.pieces path, piece.isEmpty = true := by
    rw [Path.properPieces, List.reverse_eq_nil_iff, List.dropWhile_eq_nil_iff] at h
    exact fun piece hpiece => h piece (List.mem_reverse.mpr hpiece)
  cases hcs : path.toList with
  | nil => exact absurd (String.toList_inj.mp hcs) hne
  | cons c rest =>
      by_cases hc : c = '/'
      · simp [Path.isAbsolute, hcs, hc]
      · rw [Path.pieces, hcs, Text.splitAtChar, if_neg hc] at hempty
        split at hempty
        · simp at hempty
        · simp at hempty

theorem makeFolder_closed (h : s.Closed) {made : Bool × Store}
    (hmade : s.makeFolder path = some made) : made.2.Closed := by
  obtain ⟨l, hlocate, rfl⟩ := Option.map_eq_some_iff.mp hmade
  cases hentry : s.lookUp? l with
  | some entry =>
      cases entry with
      | folder => exact h
      | file content => exact h
  | none =>
      refine h.set (fun _ => rfl) ?_
      rintro outer name rfl
      unfold locateParts at hlocate
      split at hlocate
      · next husable =>
          by_cases hparts : Path.properPieces path = []
          · simp only [isUsable, Bool.and_eq_true, decide_eq_true_eq, ne_eq] at husable
            have habsolute := isAbsolute_of_properPieces_eq_nil husable.1.1 hparts
            simp [hparts, start, habsolute] at hlocate
          · exact h.foldlM_inFolder hparts hlocate
      · cases hlocate

theorem makeNested_closed (h : s.Closed) (paths : List String) :
    (s.makeNested paths).2.Closed := by
  induction paths with
  | nil => exact h
  | cons path outer ih =>
      rcases makeNested_cons_cases s path outer with hmade | ⟨-, -, hmade⟩ | ⟨-, -, hrefused⟩
      · exact makeFolder_closed h hmade
      · exact makeFolder_closed ih hmade
      · rw [hrefused]
        exact ih

private theorem lookup_filter (keep : Location → Bool) (entries : List (Location × Entry))
    (l : Location) :
    (entries.filter fun entry => keep entry.1).lookup l =
      if keep l then entries.lookup l else none := by
  induction entries with
  | nil => simp
  | cons known rest ih =>
      obtain ⟨k, entry⟩ := known
      by_cases hl : l = k
      · subst hl
        cases hk : keep l <;> simp [hk, ih]
      · have hb : (l == k) = false := by simpa using hl
        cases hk : keep k <;> simp [hk, List.lookup_cons, hb, ih]

/-- Keeping entries together with the folders that they stand in keeps a store closed. -/
theorem filter_closed (h : s.Closed) (keep : Location → Bool)
    (hkeep : ∀ l name, keep (l ++ [name]) = true → keep l = true) :
    Closed { s with entries := s.entries.filter fun entry => keep entry.1 } := by
  intro l name entry hentry
  unfold lookUp? at hentry ⊢
  simp only [List.append_eq_nil_iff, List.cons_ne_nil, and_false, if_false, lookup_filter]
    at hentry ⊢
  split at hentry
  · next hkept =>
      rw [if_pos (hkeep l name hkept)]
      have hfolder := h l name entry (by simpa [lookUp?] using hentry)
      simpa [lookUp?] using hfolder
  · cases hentry

namespace Closed

theorem makeFolders (h : s.Closed) (path : String) : (s.makeFolders path).2.Closed := by
  unfold Store.makeFolders
  split
  · exact h
  · split
    · exact makeNested_closed h _
    · exact h

theorem clear (h : s.Closed) (l : Location) : (s.clear l).Closed := by
  refine filter_closed h (fun m => !(l.isPrefixOf m && m ≠ l)) ?_
  intro m name hm
  simp only [Bool.not_eq_true', Bool.and_eq_false_imp, List.isPrefixOf_iff_prefix,
    decide_eq_false_iff_not, not_not] at hm ⊢
  intro hpre
  have heq := hm (hpre.trans (List.prefix_append m [name]))
  have hlength := hpre.length_le
  rw [← heq, List.length_append, List.length_singleton] at hlength
  omega

theorem erase (h : s.Closed) (l : Location) : (s.erase l).Closed := by
  refine filter_closed h (fun m => !l.isPrefixOf m) ?_
  intro m name hm
  simp only [Bool.not_eq_true', ← Bool.not_eq_true, List.isPrefixOf_iff_prefix] at hm ⊢
  exact fun hpre => hm (hpre.trans (List.prefix_append m [name]))

theorem remove (h : s.Closed) (path : String) : (s.remove path).2.Closed := by
  unfold Store.remove
  cases s.locate path with
  | none => exact h
  | some l =>
      dsimp only
      split
      · exact h
      · split
        · exact h.clear l
        · split
          · exact h.clear l
          · exact h.erase l

end Closed

end Store

end SdkHeaders
