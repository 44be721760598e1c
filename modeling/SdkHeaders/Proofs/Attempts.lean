import SdkHeaders.Files.Disk
import SdkHeaders.Proofs.ParentFolders

/-!
# Attempts at files

What an attempt to save a file does on a disk on which anything may go wrong.  Folders are made on
the way to the file, perhaps not all of them, and the file may be written, perhaps not with what it
should hold.  Either way nothing changes at the paths of other files.

Main results:

- Definition `Store.entryAt?` looks up what stands where a path leads.
- Relation `Store.Tried` says what an attempt at a file does to a store, and theorem
  `Anchored.tried` that it does not change what stands at the anchored path of another file.
- Theorem `Disk.attempt_of_savingFile`: what saving a file on a disk comes to.
-/

namespace SdkHeaders

open Store

/-! ## What stands at a path -/

/-- What stands where a path leads. -/
def Store.entryAt? (s : Store) (path : String) : Option Entry :=
  (s.locate path).bind s.lookUp?

section Anchored

variable {s t : Store} {folder name : String}

/-- What stands at an anchored path stays the same if its location is not touched and no folder
appears there. -/
theorem Anchored.entryAt?_eq {touched : List Location} (h : Anchored s folder name)
    (hslash : '/' ∉ name.toList) (hplain : IsPlain name.toList) (hgrown : Grown touched s t)
    (htouched : ∀ outer, outer ++ [name] ∉ touched)
    (hmade : ∀ l, t.locate (Path.join folder name) = some l → s.lookUp? l = none →
      t.lookUp? l ≠ some .folder) :
    t.entryAt? (Path.join folder name) = s.entryAt? (Path.join folder name) := by
  have hkept : ∀ l, t.locate (Path.join folder name) = some l → t.lookUp? l = s.lookUp? l := by
    intro l hl
    obtain ⟨outer, rfl⟩ := exists_append_of_locate hslash hplain hl
    rcases hgrown.elsewhere _ (htouched outer) with heq | ⟨hnone, hfolder⟩
    · exact heq
    · exact absurd hfolder (hmade _ hl hnone)
  unfold entryAt?
  cases hbefore : s.locate (Path.join folder name) with
  | some l =>
      have hl := hgrown.locate hbefore
      rw [hl, Option.bind_some, Option.bind_some, hkept l hl]
  | none =>
      rcases h with hsome | ⟨hclosed, hupward⟩
      · simp [hbefore] at hsome
      · cases hafter : t.locate (Path.join folder name) with
        | none => rfl
        | some l =>
            rw [Option.bind_some, Option.bind_none, hkept l hafter]
            -- Had something stood there before, the path would have led there.
            cases hentry : s.lookUp? l with
            | none => rfl
            | some entry =>
                have hearly := hgrown.locate_of_closed hclosed hslash hplain hupward hafter hentry
                rw [hbefore] at hearly
                cases hearly

theorem Anchored.of_grown {touched : List Location} (h : Anchored s folder name)
    (hgrown : Grown touched s t) (hclosed : s.Closed → t.Closed) : Anchored t folder name := by
  rcases h with hsome | ⟨hs, hupward⟩
  · obtain ⟨l, hl⟩ := Option.isSome_iff_exists.mp hsome
    exact .inl (Option.isSome_iff_exists.mpr ⟨l, hgrown.locate hl⟩)
  · exact .inr ⟨hclosed hs, hupward⟩

/-- Parts that do not lead upward lead further into a store. -/
theorem Store.prefix_of_foldlM_follow {parts : List (List Char)}
    (hupward : ∀ piece ∈ parts, isUpward piece = false) {l m : Location}
    (h : parts.foldlM s.follow l = some m) : l <+: m := by
  induction parts generalizing l with
  | nil =>
      cases h
      exact List.prefix_rfl
  | cons piece rest ih =>
      rw [List.forall_mem_cons] at hupward
      rw [List.foldlM_cons] at h
      obtain ⟨next, hnext, hrest⟩ := Option.bind_eq_some_iff.mp h
      exact (prefix_of_follow hupward.1 hnext).trans (ih hupward.2 hrest)

/-- Making folders on the way to files does not change what stands at the anchored path of one of
them. -/
theorem Anchored.made (h : Anchored s folder name) (hslash : '/' ∉ name.toList)
    (hplain : IsPlain name.toList) {parts : List (List Char)} (hway : Path.WayInto folder parts)
    (hpieces : Path.pieces (Path.join folder name) = parts ++ [name.toList])
    (hmade : Made s parts t) :
    Anchored t folder name ∧
      t.entryAt? (Path.join folder name) = s.entryAt? (Path.join folder name) := by
  have hgrown := hmade.grown
  refine ⟨h.of_grown hgrown hmade.closed, ?_⟩
  rcases h with hsome | ⟨hclosed, hupward⟩
  · -- The folder is there already.
    obtain ⟨l, hl⟩ := Option.isSome_iff_exists.mp hsome
    obtain ⟨-, outer, houter, hlast⟩ := (locate_eq_some_iff_of_pieces hpieces).mp hl
    rw [hmade.eq_of_isFolder hpieces hplain.1 houter (isFolder_of_follow hlast)]
  · refine Anchored.entryAt?_eq (.inr ⟨hclosed, hupward⟩) hslash hplain hgrown (by simp) ?_
    -- A folder that is made stands on the way to the file, which does not lead upward.
    intro l hl hnone hfolder
    obtain ⟨first, ⟨rest, hrest⟩, hfirst⟩ := hmade.exists_way hpieces hplain.1 hnone hfolder
    obtain ⟨-, outer, houter, hlast⟩ := (locate_eq_some_iff_of_pieces hpieces).mp hl
    rw [hgrown.start, ← hrest, List.foldlM_append, hfirst] at houter
    have hpre : l <+: outer := by
      refine prefix_of_foldlM_follow (fun piece hpiece => ?_) houter
      exact hupward piece (hway.subset (hrest ▸ List.mem_append_right first hpiece))
    have hlength := hpre.length_le
    rw [eq_append_of_follow hplain hlast, List.length_append, List.length_singleton] at hlength
    omega

/-- Writing another file does not change what stands at an anchored path. -/
theorem Anchored.write (h : Anchored s folder name) (hslash : '/' ∉ name.toList)
    (hplain : IsPlain name.toList) {other : String} (hslash' : '/' ∉ other.toList)
    (hplain' : IsPlain other.toList) (hother : other ≠ name) {content : Content}
    (hwrite : s.write (Path.join folder other) content = (true, t)) :
    Anchored t folder name ∧
      t.entryAt? (Path.join folder name) = s.entryAt? (Path.join folder name) := by
  obtain ⟨l, hgrown, hlocate, hheld⟩ := write_grown hwrite
  obtain ⟨outer, rfl⟩ := exists_append_of_locate hslash' hplain' hlocate
  have hclosed : s.Closed → t.Closed := fun hs => by
    have hwritten := hs.write (Path.join folder other) content
    rwa [hwrite] at hwritten
  refine ⟨h.of_grown hgrown hclosed, h.entryAt?_eq hslash hplain hgrown ?_ ?_⟩
  · intro outer' hmem
    obtain ⟨-, hsame⟩ := List.append_inj' (List.mem_singleton.mp hmem) rfl
    exact hother (List.singleton_inj.mp hsame).symm
  · intro m _ hnone hfolder
    obtain ⟨k, -, -, rfl⟩ := write_eq_true_iff.mp hwrite
    by_cases hsame : m = k
    · have hroot : m ≠ [] := by
        rintro rfl
        simp [lookUp?] at hnone
      rw [← hsame, lookUp?_set_self hroot] at hfolder
      cases hfolder
    · rw [lookUp?_set_of_ne hsame, hnone] at hfolder
      cases hfolder

end Anchored

/-! ## Attempts -/

/-- What an attempt at a file does to a store: folders are made on the way to the file, and the file
may have been written, perhaps not with what it should hold. -/
def Store.Tried (s : Store) (path : String) (t : Store) : Prop :=
  ∃ middle, (∀ parts name, Path.pieces path = parts ++ [name] → Path.isIdle name = false →
      Made s parts middle) ∧
    (t = middle ∨ ∃ content, middle.write path content = (true, t))

namespace Store.Tried

variable {s t : Store} {folder name : String}

/-- An attempt at a file grows a store, at most at the location of the file. -/
theorem grown (h : s.Tried (Path.join folder name) t) (hslash : '/' ∉ name.toList)
    (hplain : IsPlain name.toList) :
    ∃ touched, Grown touched s t ∧
      ∀ l ∈ touched, t.locate (Path.join folder name) = some l := by
  obtain ⟨middle, hmade, hwrite⟩ := h
  obtain ⟨parts, -, hpieces⟩ := Path.pieces_join folder
  have hfolders := (hmade parts _ (hpieces name hslash) hplain.1).grown
  rcases hwrite with rfl | ⟨content, hwrite⟩
  · exact ⟨[], hfolders, by simp⟩
  · obtain ⟨l, hgrown, hlocate, -⟩ := write_grown hwrite
    exact ⟨[l], hfolders.trans hgrown, by simpa using hlocate⟩

end Store.Tried

/-- An attempt at another file does not change what stands at an anchored path. -/
theorem Anchored.tried {s t : Store} {folder name other : String} (h : Anchored s folder name)
    (hslash : '/' ∉ name.toList) (hplain : IsPlain name.toList) (hslash' : '/' ∉ other.toList)
    (hplain' : IsPlain other.toList) (hother : other ≠ name)
    (htried : s.Tried (Path.join folder other) t) :
    Anchored t folder name ∧
      t.entryAt? (Path.join folder name) = s.entryAt? (Path.join folder name) := by
  obtain ⟨middle, hmade, hwrite⟩ := htried
  obtain ⟨parts, hway, hpieces⟩ := Path.pieces_join folder
  -- The way to the other file is the way to this one.
  have hsame := hmade parts _ (hpieces other hslash') hplain'.1
  obtain ⟨hmiddle, hentry⟩ := h.made hslash hplain hway (hpieces name hslash) hsame
  rcases hwrite with rfl | ⟨content, hwrite⟩
  · exact ⟨hmiddle, hentry⟩
  · obtain ⟨hanchored, hlast⟩ := hmiddle.write hslash hplain hslash' hplain' hother hwrite
    exact ⟨hanchored, hlast.trans hentry⟩

/-- The folders that are made before an end come are on the way. -/
theorem Store.made_makeOuter (s : Store) {parts : List (List Char)} {folder : String}
    (h : ∀ a ∈ folder :: Path.ancestors folder, Path.Begins parts a) (inner : Nat) :
    Made s parts (s.makeOuter folder inner) := by
  unfold makeOuter
  split
  · exact ⟨_, fun a ha => h a (List.mem_cons_of_mem _ (List.mem_of_mem_drop ha)), rfl⟩
  · exact .refl s parts

namespace Disk

variable {d d' : Disk} {path text : String}

/-- An operation goes well, or it comes to what its mishap makes of it. -/
theorem operate_cases {α : Type} {well : Store → α × Store} {ill : Mishap → Store → α × Store}
    {a : α} (h : d.operate well ill = (a, d')) :
    well d.store = (a, d'.store) ∨ ∃ mishap, ill mishap d.store = (a, d'.store) := by
  unfold operate at h
  cases hnext : d.mishaps.head?.join with
  | none =>
      rw [hnext] at h
      cases h
      exact .inl rfl
  | some mishap =>
      rw [hnext] at h
      cases h
      exact .inr ⟨mishap, rfl⟩

theorem read_cases {found : Option String} (h : d.read path = (found, d')) :
    d'.store = d.store ∧ (found = d.store.read path ∨ found = none) := by
  rcases operate_cases h with hwell | ⟨mishap, hill⟩
  · obtain ⟨hfound, hstore⟩ := Prod.mk.inj hwell
    exact ⟨hstore.symm, .inl hfound.symm⟩
  · obtain ⟨hfound, hstore⟩ := Prod.mk.inj hill
    exact ⟨hstore.symm, .inr hfound.symm⟩

theorem makeFolders_cases {folder : String} {ready : Bool}
    (h : d.makeFolders folder = (ready, d')) :
    d.store.makeFolders folder = (ready, d'.store) ∨
      folder ≠ "" ∧ ready = false ∧
        (d'.store = d.store ∨ ∃ inner, d'.store = d.store.makeOuter folder inner) := by
  unfold makeFolders at h
  split at h
  · next hempty =>
      cases h
      exact .inl (by rw [Store.makeFolders, if_pos hempty])
  · next hempty =>
      rcases operate_cases h with hwell | ⟨mishap, hill⟩
      · exact .inl hwell
      · refine .inr ⟨hempty, ?_⟩
        cases mishap <;> obtain ⟨hready, hstore⟩ := Prod.mk.inj hill
        case refused => exact ⟨hready.symm, .inl hstore.symm⟩
        case halted inner => exact ⟨hready.symm, .inr ⟨inner, hstore.symm⟩⟩
        case torn rest => exact ⟨hready.symm, .inl hstore.symm⟩

theorem write_cases {done : Bool} (h : d.write path text = (done, d')) :
    d.store.write path (.text text) = (done, d'.store) ∨
      done = false ∧
        (d'.store = d.store ∨ ∃ rest, d'.store = (d.store.write path rest).2) := by
  rcases operate_cases h with hwell | ⟨mishap, hill⟩
  · exact .inl hwell
  · refine .inr ?_
    cases mishap <;> obtain ⟨hdone, hstore⟩ := Prod.mk.inj hill
    case refused => exact ⟨hdone.symm, .inl hstore.symm⟩
    case halted inner => exact ⟨hdone.symm, .inl hstore.symm⟩
    case torn rest => exact ⟨hdone.symm, .inr ⟨rest, hstore.symm⟩⟩

/-- A file that is written or not leaves a store that it has been written to, perhaps with something
else, or that has not changed. -/
theorem written_of_write {done : Bool} (h : d.write path text = (done, d')) :
    d'.store = d.store ∨ ∃ content, d.store.write path content = (true, d'.store) := by
  have hstore : d'.store = d.store ∨ ∃ content, d'.store = (d.store.write path content).2 := by
    rcases write_cases h with hwell | ⟨-, hill⟩
    · exact .inr ⟨_, by rw [hwell]⟩
    · exact hill
  rcases hstore with hsame | ⟨content, hstore⟩
  · exact .inl hsame
  · rcases hwrite : d.store.write path content with ⟨flag, t⟩
    rw [hwrite] at hstore
    cases flag with
    | false => exact .inl (hstore.trans (write_eq_false hwrite))
    | true => exact .inr ⟨content, hstore ▸ hwrite⟩

/-- If the folder of a file is there, it is there in the store as well. -/
theorem readied_of_ready (h : readying path d = (true, d')) :
    d.store.readied path = (true, d'.store) := by
  unfold readying at h
  unfold readied
  cases hparent : Path.parent? path with
  | none =>
      rw [hparent] at h
      cases h
      rfl
  | some parent =>
      rw [hparent] at h
      rcases makeFolders_cases h with hwell | ⟨-, hready, -⟩
      · exact hwell
      · cases hready

/-- Whether or not the folder of a file can be made, nothing is made but on the way to it. -/
theorem made_of_ready {ready : Bool} (h : readying path d = (ready, d'))
    {parts : List (List Char)} {name : List Char} (hpieces : Path.pieces path = parts ++ [name])
    (hname : Path.isIdle name = false) : Made d.store parts d'.store := by
  unfold readying at h
  cases hparent : Path.parent? path with
  | none =>
      rw [hparent] at h
      cases h
      exact .refl _ parts
  | some parent =>
      have hbegins := begins_of_parent hpieces hname hparent
      rw [hparent] at h
      rcases makeFolders_cases h with hwell | ⟨hempty, -, hsame | ⟨inner, houter⟩⟩
      · have hmade := made_makeFolders d.store hbegins
        rwa [hwell] at hmade
      · exact hsame ▸ .refl _ parts
      · exact houter ▸ made_makeOuter d.store (hbegins.resolve_left hempty) inner

/-- What saving a file comes to: the attempt does what it may do to the store; the file stands at
its location if it counts as saved; and otherwise it is told what could not be made. -/
structure Attempt (path text : String) (s t : Store) (outcome : Except SaveFault SaveResult) :
    Prop where
  tried : s.Tried path t
  placed : ∀ result, outcome = .ok result → ∃ l, Placed path text s t l
  fault : ∀ fault, outcome = .error fault →
    fault = .noFolder ((Path.parent? path).getD "") ∨ fault = .noFile path

theorem attempt_of_savingFile {outcome : Except SaveFault SaveResult}
    (h : savingFile path text d = (outcome, d')) :
    Attempt path text d.store d'.store outcome := by
  rw [savingFile_run] at h
  rcases hread : (FileAccess.readText path : StateM Disk (Option String)).run d with
    ⟨found, looked⟩
  obtain ⟨hlooked, hfound⟩ := read_cases hread
  simp only [hread] at h
  split at h
  · next hsame =>
      cases h
      have hheld : d.store.read path = some text := by
        rcases hfound with hfound | hfound
        · exact hfound.symm.trans hsame
        · cases hfound.symm.trans hsame
      rw [hlooked]
      exact ⟨⟨_, fun parts _ _ _ => .refl _ parts, .inl rfl⟩, fun _ _ => placed_of_read hheld,
        nofun⟩
  · rw [writeInFolder_run] at h
    rcases hready : readying path looked with ⟨ready, made⟩
    rw [← hlooked]
    have hmade := fun parts name => @made_of_ready _ _ _ _ hready parts name
    simp only [hready] at h
    cases ready with
    | false =>
        cases h
        exact ⟨⟨_, hmade, .inl rfl⟩, nofun, fun fault hfault => .inl (Except.error.inj hfault).symm⟩
    | true =>
        rcases hwrite : (FileAccess.writeText path text : StateM Disk Bool).run made with
          ⟨done, last⟩
        simp only [hwrite] at h
        have htried : looked.store.Tried path last.store := ⟨_, hmade, written_of_write hwrite⟩
        cases done with
        | false =>
            cases h
            exact ⟨htried, nofun, fun fault hfault => .inr (Except.error.inj hfault).symm⟩
        | true =>
            cases h
            refine ⟨htried, fun _ _ => placed_of_write ?_, nofun⟩
            rw [readied_of_ready hready]
            rcases write_cases hwrite with hwell | ⟨hdone, -⟩
            · exact hwell
            · cases hdone

end Disk

end SdkHeaders
