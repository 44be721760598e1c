import SdkHeaders.Proofs.Saving

/-!
# Folders on the way to a file

Which folders are made so that a file can be written.  They are those on the way to the file as
far as its path says so: a folder that is there already stays the way it is, and none is made
beside or below the way.

Main results:

- Theorem `Path.pieces_ofPieces`: parts that are put together to a path are the parts of the path.
- Theorem `Path.parent?_eq`: the parent of a path has the parts of the path but the last one and
  the idle ones before it.
- Relation `Store.Made` says that folders have been made on a way, perhaps not all of them; theorem
  `Store.made_makeFolders` that making a folder on the way comes to this.
- Theorem `Store.Made.eq_of_isFolder`: nothing is made on the way into a folder that is there.
- Theorem `Store.Made.exists_way`: whatever is made stands on the way.
-/

namespace SdkHeaders

/-! ## Parts put together -/

namespace Text

theorem splitAtChar_eq_splitOn (separator : Char) (cs : List Char) :
    splitAtChar separator cs = cs.splitOn separator := by
  induction cs with
  | nil => rfl
  | cons c rest ih =>
      have hcons : (c :: rest).splitOn separator =
          if c = separator then [] :: rest.splitOn separator
          else (rest.splitOn separator).modifyHead (List.cons c) := by
        simp only [List.splitOn_eq_splitOnP, List.splitOnP_cons_eq_if_modifyHead, beq_iff_eq]
      rw [splitAtChar, hcons, ih]
      cases hparts : rest.splitOn separator with
      | nil => exact absurd (ih.trans hparts) (splitAtChar_ne_nil rest)
      | cons part parts => rfl

/-- The parts around separators hold no separator. -/
theorem not_mem_of_mem_splitAtChar {separator : Char} {cs piece : List Char}
    (h : piece ∈ splitAtChar separator cs) : separator ∉ piece := by
  induction cs generalizing piece with
  | nil => simp_all [splitAtChar]
  | cons c rest ih =>
      unfold splitAtChar at h
      by_cases hc : c = separator
      · rw [if_pos hc, List.mem_cons] at h
        rcases h with rfl | h
        · exact List.not_mem_nil
        · exact ih h
      · rw [if_neg hc] at h
        cases hparts : splitAtChar separator rest with
        | nil => exact absurd hparts (splitAtChar_ne_nil rest)
        | cons part parts =>
            rw [hparts] at h ih
            rcases List.mem_cons.mp h with rfl | h
            · have hpart := ih List.mem_cons_self
              simp [hpart, Ne.symm hc]
            · exact ih (List.mem_cons_of_mem _ h)

end Text

namespace Path

/-- Parts that are put together to a path are the parts of the path. -/
theorem pieces_ofPieces {parts : List (List Char)} (hne : parts ≠ []) (hsingle : parts ≠ [[]])
    (hslash : ∀ piece ∈ parts, '/' ∉ piece) : pieces (ofPieces parts) = parts := by
  have hplain : ofPieces parts = "/".intercalate (parts.map String.ofList) := by
    unfold ofPieces
    split
    · next heq => exact absurd rfl hsingle
    · rfl
  have hlist : (parts.map String.ofList).map String.toList = parts := by
    simp [Function.comp_def]
  have hseparator : "/".toList = ['/'] := rfl
  rw [hplain, pieces, String.toList_intercalate, hlist, hseparator, Text.splitAtChar_eq_splitOn]
  exact List.splitOn_intercalate '/' hslash hne

/-! ## Parents and ancestors -/

theorem not_mem_of_mem_pieces {path : String} {piece : List Char} (h : piece ∈ pieces path) :
    '/' ∉ piece :=
  Text.not_mem_of_mem_splitAtChar h

/-- A path starts at the root exactly if its first part is empty, unless there is no other. -/
theorem isAbsolute_iff {path : String} :
    isAbsolute path = true ↔ path ≠ "" ∧ (pieces path).head? = some [] := by
  rw [isAbsolute, pieces, ne_eq, ← String.toList_inj]
  cases hcs : path.toList with
  | nil => simp
  | cons c rest =>
      by_cases hc : c = '/'
      · simp [Text.splitAtChar, hc]
      · cases hparts : Text.splitAtChar '/' rest with
        | nil => exact absurd hparts (Text.splitAtChar_ne_nil rest)
        | cons part parts => simp [Text.splitAtChar, hc, hparts]

/-- A path with a last part that is not idle is not empty. -/
theorem ne_empty_of_pieces {path : String} {parts : List (List Char)} {name : List Char}
    (hpieces : pieces path = parts ++ [name]) (hname : isIdle name = false) : path ≠ "" := by
  rintro rfl
  have hlast : some [] = some name := by
    simpa [pieces, Text.splitAtChar] using congrArg List.getLast? hpieces
  rw [← Option.some.inj hlast] at hname
  cases hname

/-- Dropping idle parts leaves the others, and at least one of them. -/
theorem exists_dropIdle (parts : List (List Char)) :
    ∃ idle, (∀ piece ∈ idle, isIdle piece = true) ∧ parts = idle ++ dropIdle parts ∧
      (parts ≠ [] → dropIdle parts ≠ []) := by
  induction parts with
  | nil => exact ⟨[], by simp, rfl, id⟩
  | cons piece rest ih =>
      cases rest with
      | nil => exact ⟨[], by simp, rfl, id⟩
      | cons next more =>
          unfold dropIdle
          by_cases hidle : isIdle piece = true
          · obtain ⟨idle, hall, hrest, hne⟩ := ih
            refine ⟨piece :: idle, List.forall_mem_cons.mpr ⟨hidle, hall⟩, ?_, ?_⟩
            · rw [if_pos hidle, List.cons_append, ← hrest]
            · rw [if_pos hidle]
              exact fun _ => hne nofun
          · exact ⟨[], by simp, by simp [hidle], by simp [hidle]⟩

/-- A path is put together from the first parts of another one. -/
def Begins (parts : List (List Char)) (path : String) : Prop :=
  ∃ first, first ≠ [] ∧ first <+: parts ∧ path = ofPieces first

theorem Begins.trans {parts first : List (List Char)} {path : String} (h : Begins first path)
    (hfirst : first <+: parts) : Begins parts path := by
  obtain ⟨more, hne, hmore, rfl⟩ := h
  exact ⟨more, hne, hmore.trans hfirst, rfl⟩

/-- The path of the folder that parts lead into, without idle parts at its end. -/
def folderOf (parts : List (List Char)) : String :=
  ofPieces (dropIdle parts.reverse).reverse

theorem begins_folderOf {parts : List (List Char)} (hne : parts ≠ []) :
    Begins parts (folderOf parts) := by
  obtain ⟨idle, -, hparts, hnonempty⟩ := exists_dropIdle parts.reverse
  refine ⟨_, ?_, ⟨idle.reverse, ?_⟩, rfl⟩
  · simpa using hnonempty (by simpa using hne)
  · rw [← List.reverse_append, ← hparts, List.reverse_reverse]

/-- The parent of a path is empty or put together from the first parts of the path. -/
theorem begins_of_parent {path outer : String} (h : parent? path = some outer)
    (hne : outer ≠ "") : Begins (pieces path) outer := by
  obtain ⟨idle, -, hparts, -⟩ := exists_dropIdle (pieces path).reverse
  unfold parent? at h
  split at h
  · cases h
  · cases h
  · exact absurd (Option.some.inj h).symm hne
  · next last rest _ hrest heq =>
      have hfirst : rest.reverse <+: pieces path := by
        refine ⟨last :: idle.reverse, ?_⟩
        rw [heq] at hparts
        simpa using (congrArg List.reverse hparts).symm
      have hbegins := @begins_folderOf rest.reverse (by simpa using hrest)
      rw [folderOf, List.reverse_reverse] at hbegins
      exact Option.some.inj h ▸ hbegins.trans hfirst

/-- The parent of a file in a folder is the path of the folder. -/
theorem parent?_eq {path : String} {parts : List (List Char)} {name : List Char}
    (hpieces : pieces path = parts ++ [name]) (hname : isIdle name = false) :
    parent? path = some (if parts = [] then "" else folderOf parts) := by
  have hdrop : ∀ rest, dropIdle (name :: rest) = name :: rest := by
    intro rest
    cases rest <;> simp [dropIdle, hname]
  unfold parent?
  rw [hpieces, List.reverse_append, List.reverse_singleton, List.singleton_append, hdrop]
  cases hparts : parts.reverse with
  | nil =>
      have hnonempty : name ≠ [] := by
        rintro rfl
        simp [isIdle] at hname
      obtain ⟨c, rest, rfl⟩ := List.exists_cons_of_ne_nil hnonempty
      rw [if_pos (List.reverse_eq_nil_iff.mp hparts)]
  | cons last rest =>
      have hne : parts ≠ [] := by
        rintro rfl
        simp at hparts
      simp [hne, folderOf, hparts]

/-- The proper parts of a path are its parts but idle ones at the end. -/
theorem exists_properPieces (path : String) :
    ∃ idle, (∀ piece ∈ idle, isIdle piece = true) ∧ pieces path = properPieces path ++ idle := by
  refine ⟨((pieces path).reverse.takeWhile List.isEmpty).reverse, ?_, ?_⟩
  · intro piece hpiece
    have hempty := List.mem_takeWhile_imp (List.mem_reverse.mp hpiece)
    simp [isIdle, List.isEmpty_iff.mp hempty]
  · rw [properPieces, ← List.reverse_append, List.takeWhile_append_dropWhile, List.reverse_reverse]

/-- Parts that are put together are the proper parts of the path and idle ones at the end. -/
theorem exists_properPieces_ofPieces {parts : List (List Char)} (hne : parts ≠ [])
    (hslash : ∀ piece ∈ parts, '/' ∉ piece) :
    ∃ idle, (∀ piece ∈ idle, isIdle piece = true) ∧
      parts = properPieces (ofPieces parts) ++ idle := by
  by_cases hroot : parts = [[]]
  · subst hroot
    exact ⟨[[]], by decide, rfl⟩
  · obtain ⟨idle, hidle, heq⟩ := exists_properPieces (ofPieces parts)
    rw [pieces_ofPieces hne hroot hslash] at heq
    exact ⟨idle, hidle, heq⟩

/-- Parts that are put together start at the root exactly if the first one is empty. -/
theorem isAbsolute_ofPieces {parts : List (List Char)} (hne : parts ≠ [])
    (hslash : ∀ piece ∈ parts, '/' ∉ piece) :
    ofPieces parts ≠ "" ∧ (isAbsolute (ofPieces parts) = true ↔ parts.head? = some []) := by
  by_cases hroot : parts = [[]]
  · subst hroot
    decide
  · have hpieces := pieces_ofPieces hne hroot hslash
    have hnonempty : ofPieces parts ≠ "" := by
      intro hempty
      rw [hempty] at hpieces
      exact hroot hpieces.symm
    exact ⟨hnonempty, by rw [isAbsolute_iff, hpieces]; simp [hnonempty]⟩

/-- What begins a path is not empty, it starts where the path starts, and its proper parts are some
of the first parts of the path. -/
theorem Begins.spec {path a : String} {parts : List (List Char)} (hpath : path ≠ "")
    (hparts : parts <+: pieces path) (h : Begins parts a) :
    a ≠ "" ∧ isAbsolute a = isAbsolute path ∧ properPieces a <+: parts := by
  obtain ⟨first, hne, hfirst, rfl⟩ := h
  have hslash : ∀ piece ∈ first, '/' ∉ piece := fun piece hpiece =>
    not_mem_of_mem_pieces ((hfirst.trans hparts).subset hpiece)
  obtain ⟨hnonempty, habsolute⟩ := isAbsolute_ofPieces hne hslash
  obtain ⟨idle, -, hproper⟩ := exists_properPieces_ofPieces hne hslash
  obtain ⟨rest, hrest⟩ := hfirst.trans hparts
  refine ⟨hnonempty, ?_, .trans ⟨idle, hproper.symm⟩ hfirst⟩
  rw [Bool.eq_iff_iff, habsolute, isAbsolute_iff, ← hrest, List.head?_append_of_ne_nil _ hne]
  simp [hpath]

/-- The folders around what begins a path begin the path as well. -/
theorem Begins.of_mem_outward {parts : List (List Char)} (hslash : ∀ piece ∈ parts, '/' ∉ piece)
    {bound : Nat} {a : String} (h : Begins parts a) :
    ∀ outer ∈ outward bound a, Begins parts outer := by
  induction bound generalizing a with
  | zero => simp [outward]
  | succ bound ih =>
      intro outer houter
      unfold outward at houter
      cases hparent : parent? a with
      | none => simp [hparent] at houter
      | some next =>
          by_cases hnext : next = ""
          · simp [hparent, hnext] at houter
          · have hbegins : Begins parts next := by
              have hinner := begins_of_parent hparent hnext
              obtain ⟨first, hne, hfirst, rfl⟩ := h
              by_cases hroot : first = [[]]
              · subst hroot
                cases hparent
              · rw [pieces_ofPieces hne hroot fun piece hpiece =>
                  hslash piece (hfirst.subset hpiece)] at hinner
                exact hinner.trans hfirst
            simp only [hparent, hnext, if_false, List.mem_cons] at houter
            rcases houter with rfl | houter
            · exact hbegins
            · exact ih hbegins outer houter

end Path

/-! ## Folders that are made for a file -/

namespace Store

variable {s t : Store} {path : String} {parts : List (List Char)} {name : List Char}

/-- Nested folders that are there, or cannot be made alone, leave a store alone. -/
theorem makeNested_eq_of_forall {paths : List String}
    (h : ∀ a ∈ paths, ∀ made, s.makeFolder a = some made → made.2 = s) :
    (s.makeNested paths).2 = s := by
  induction paths with
  | nil => rfl
  | cons a outer ih =>
      rw [List.forall_mem_cons] at h
      have houter := ih h.2
      rcases makeNested_cons_cases s a outer with hmade | ⟨-, -, hmade⟩ | ⟨-, -, hrefused⟩
      · exact h.1 _ hmade
      · rw [houter] at hmade
        exact h.1 _ hmade
      · rw [hrefused]
        exact houter

/-- Parts that lead somewhere lead into folders on their way. -/
theorem isFolder_of_foldlM_prefix {first : List (List Char)} (hfirst : first <+: parts)
    {l outer : Location} (hway : parts.foldlM s.follow l = some outer)
    (hfolder : s.isFolder outer = true) :
    ∃ m, first.foldlM s.follow l = some m ∧ s.isFolder m = true := by
  obtain ⟨rest, rfl⟩ := hfirst
  rw [List.foldlM_append] at hway
  obtain ⟨m, hm, hrest⟩ := Option.bind_eq_some_iff.mp hway
  refine ⟨m, hm, ?_⟩
  cases rest with
  | nil =>
      cases hrest
      exact hfolder
  | cons piece more =>
      rw [List.foldlM_cons] at hrest
      obtain ⟨next, hnext, -⟩ := Option.bind_eq_some_iff.mp hrest
      exact isFolder_of_follow hnext

/-- The path of a folder leads to where the folder is made. -/
theorem foldlM_properPieces_of_makeFolder {a : String} {made : Bool × Store} {l : Location}
    (h : s.makeFolder a = some made) (hnone : s.lookUp? l = none)
    (hmade : made.2.lookUp? l = some .folder) :
    (Path.properPieces a).foldlM s.follow (s.start a) = some l := by
  obtain ⟨m, hlocate, rfl⟩ := Option.map_eq_some_iff.mp h
  have hsame : l = m := by
    cases hentry : s.lookUp? m with
    | some entry => cases entry <;> simp [hentry, hnone] at hmade
    | none =>
        by_contra hne
        simp [hentry, lookUp?_set_of_ne hne, hnone] at hmade
  unfold locateParts at hlocate
  split at hlocate
  · rw [hlocate, hsame]
  · cases hlocate

/-- The path of one of several nested folders leads to a folder that has been made. -/
theorem exists_foldlM_of_makeNested {paths : List String} {l : Location}
    (hnone : s.lookUp? l = none) (hmade : (s.makeNested paths).2.lookUp? l = some .folder) :
    ∃ a ∈ paths, (Path.properPieces a).foldlM (s.makeNested paths).2.follow (s.start a) =
      some l := by
  induction paths with
  | nil =>
      rw [makeNested, hnone] at hmade
      cases hmade
  | cons a outer ih =>
      have hgrown := makeNested_grown s outer
      rcases makeNested_cons_cases s a outer with hfirst | ⟨-, -, hlast⟩ | ⟨-, -, hrefused⟩
      · have hway := foldlM_properPieces_of_makeFolder hfirst hnone hmade
        exact ⟨a, List.mem_cons_self, (makeFolder_grown hfirst).foldlM_follow hway⟩
      · have hlater := makeFolder_grown hlast
        cases hmiddle : (s.makeNested outer).2.lookUp? l with
        | none =>
            have hway := foldlM_properPieces_of_makeFolder hlast hmiddle hmade
            rw [hgrown.start] at hway
            exact ⟨a, List.mem_cons_self, hlater.foldlM_follow hway⟩
        | some entry =>
            rcases hlater.elsewhere l List.not_mem_nil with hsame | ⟨hother, -⟩
            · obtain ⟨b, hb, hway⟩ := ih (hsame ▸ hmade)
              exact ⟨b, List.mem_cons_of_mem a hb, hlater.foldlM_follow hway⟩
            · rw [hmiddle] at hother
              cases hother
      · rw [hrefused] at hmade ⊢
        obtain ⟨b, hb, hway⟩ := ih hmade
        exact ⟨b, List.mem_cons_of_mem a hb, hway⟩

/-- Folders have been made, as far as possible, all of which stand on the way that some parts
lead. -/
def Made (s : Store) (parts : List (List Char)) (t : Store) : Prop :=
  ∃ paths, (∀ a ∈ paths, Path.Begins parts a) ∧ t = (s.makeNested paths).2

namespace Made

theorem refl (s : Store) (parts : List (List Char)) : Made s parts s :=
  ⟨[], by simp, rfl⟩

theorem grown (h : Made s parts t) : Grown [] s t := by
  obtain ⟨paths, -, rfl⟩ := h
  exact makeNested_grown s paths

theorem closed (h : Made s parts t) (hclosed : s.Closed) : t.Closed := by
  obtain ⟨paths, -, rfl⟩ := h
  exact makeNested_closed hclosed paths

variable (hpieces : Path.pieces path = parts ++ [name]) (hname : Path.isIdle name = false)

include hpieces hname

/-- Nothing is made on the way into a folder that is there. -/
theorem eq_of_isFolder (h : Made s parts t) {outer : Location}
    (hway : parts.foldlM s.follow (s.start path) = some outer)
    (hfolder : s.isFolder outer = true) : t = s := by
  obtain ⟨paths, hpaths, rfl⟩ := h
  refine makeNested_eq_of_forall fun a ha made hmade => ?_
  obtain ⟨-, habsolute, hfirst⟩ := (hpaths a ha).spec
    (Path.ne_empty_of_pieces hpieces hname) ⟨[name], hpieces.symm⟩
  obtain ⟨m, hm, hthere⟩ := isFolder_of_foldlM_prefix hfirst hway hfolder
  obtain ⟨l, hl, rfl⟩ := Option.map_eq_some_iff.mp hmade
  unfold locateParts at hl
  split at hl
  · have hsame : s.start a = s.start path := by
      rw [start, start, habsolute]
    rw [hsame, hm] at hl
    cases hl
    simp only [isFolder_iff.mp hthere]
  · cases hl

/-- A folder that is made stands on the way. -/
theorem exists_way (h : Made s parts t) {l : Location} (hnone : s.lookUp? l = none)
    (hmade : t.lookUp? l = some .folder) :
    ∃ first, first <+: parts ∧ first.foldlM t.follow (s.start path) = some l := by
  obtain ⟨paths, hpaths, rfl⟩ := h
  obtain ⟨a, ha, hway⟩ := exists_foldlM_of_makeNested hnone hmade
  obtain ⟨-, habsolute, hfirst⟩ := (hpaths a ha).spec
    (Path.ne_empty_of_pieces hpieces hname) ⟨[name], hpieces.symm⟩
  refine ⟨_, hfirst, ?_⟩
  rwa [start, habsolute] at hway

end Made

/-- Making a folder whose path begins as some parts do makes folders on their way. -/
theorem made_makeFolders (s : Store) {folder : String}
    (h : folder = "" ∨ ∀ a ∈ folder :: Path.ancestors folder, Path.Begins parts a) :
    Made s parts (s.makeFolders folder).2 := by
  unfold makeFolders
  split
  · exact .refl s parts
  · next hempty =>
      split
      · exact ⟨_, h.resolve_left hempty, rfl⟩
      · exact .refl s parts

/-- The path of the folder of a file, and of those around it, begin with the parts in front of the
name of the file. -/
theorem begins_of_parent (hpieces : Path.pieces path = parts ++ [name])
    (hname : Path.isIdle name = false) {parent : String}
    (hparent : Path.parent? path = some parent) :
    parent = "" ∨ ∀ a ∈ parent :: Path.ancestors parent, Path.Begins parts a := by
  rw [Path.parent?_eq hpieces hname] at hparent
  by_cases hempty : parts = []
  · rw [if_pos hempty] at hparent
    exact .inl (Option.some.inj hparent).symm
  · rw [if_neg hempty] at hparent
    cases hparent
    have hslash : ∀ piece ∈ parts, '/' ∉ piece := fun piece hpiece =>
      Path.not_mem_of_mem_pieces (hpieces ▸ List.mem_append_left _ hpiece)
    have hbegins := Path.begins_folderOf hempty
    exact .inr (List.forall_mem_cons.mpr ⟨hbegins, hbegins.of_mem_outward hslash⟩)

end Store

end SdkHeaders
