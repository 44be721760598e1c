import SdkHeaders.Files.Generate
import SdkHeaders.Proofs.Stages
import SdkHeaders.Proofs.StoreGrowth

/-!
# Saving headers

What a store holds after the headers of a model have been saved in it, and what the report says.
Each file is read, written and counted in its turn; the run lemma follows the list of files.

Main results:

- Structure `Saved` says what saving one file comes to, and theorem `saved_of_saveFile` that it
  does; theorem `savedAll_of_saveFiles` follows a run over several files.
- Theorem `saveFiles_again`: files that are held already are left alone.
- Structure `Model.Generated` says what generating the headers of a model comes to, and theorem
  `Model.generated_of_generate` that it does whenever it succeeds.
- Theorem `paletteModel_upward_report`: if a folder leads upward out of a missing one, the report
  does not tell which files the store held beforehand.
-/

namespace SdkHeaders

/-! ## Runs over a state -/

theorem run_bind {σ α β : Type} (x : StateM σ α) (f : α → StateM σ β) (s : σ) :
    (x >>= f).run s = (f (x.run s).1).run (x.run s).2 :=
  rfl

section Runs

variable {σ : Type} [FileAccess (StateM σ)]

/-- Saving a file where the files are part of a state. -/
def savingFile (path text : String) (s : σ) : Except SaveFault SaveResult × σ :=
  (saveFile path text : StateM σ (Except SaveFault SaveResult)).run s

/-- Saving files where they are part of a state. -/
def savingFiles (folder : String) (report : SaveReport) (files : List (String × String))
    (s : σ) : Except SaveFault SaveReport × σ :=
  (saveFiles folder report files : StateM σ (Except SaveFault SaveReport)).run s

/-- Making the folder of a path where the files are part of a state. -/
def readying (path : String) (s : σ) : Bool × σ :=
  (Path.parent? path).elim (true, s) fun parent =>
    (FileAccess.makeFolders parent : StateM σ Bool).run s

theorem writeInFolder_run (path text : String) (s : σ) :
    (writeInFolder path text : StateM σ (Except SaveFault SaveResult)).run s =
      match readying path s with
      | (false, t) => (.error (.noFolder ((Path.parent? path).getD "")), t)
      | (true, t) =>
          match (FileAccess.writeText path text : StateM σ Bool).run t with
          | (true, u) => (.ok .written, u)
          | (false, u) => (.error (.noFile path), u) := by
  have hready : ((Path.parent? path).elim (pure true) FileAccess.makeFolders :
      StateM σ Bool).run s = readying path s := by
    unfold readying
    cases Path.parent? path <;> rfl
  unfold writeInFolder
  dsimp only
  rw [run_bind, hready]
  rcases readying path s with ⟨ready, t⟩
  cases ready with
  | false => rfl
  | true =>
      rcases hwrite : (FileAccess.writeText path text : StateM σ Bool).run t with ⟨done, u⟩
      simp only [if_true, run_bind, hwrite]
      cases done <;> rfl

theorem savingFile_run (path text : String) (s : σ) :
    savingFile path text s =
      match (FileAccess.readText path : StateM σ (Option String)).run s with
      | (found, t) =>
          if found = some text then (.ok .unchanged, t)
          else (writeInFolder path text : StateM σ (Except SaveFault SaveResult)).run t := by
  rcases hread : (FileAccess.readText path : StateM σ (Option String)).run s with ⟨found, t⟩
  unfold savingFile saveFile
  rw [run_bind, hread]
  dsimp only
  split <;> rfl

theorem savingFiles_cons (folder : String) (report : SaveReport) (file : String × String)
    (rest : List (String × String)) (s : σ) :
    savingFiles folder report (file :: rest) s =
      match savingFile (Path.join folder file.1) file.2 s with
      | (.error fault, t) => (.error fault, t)
      | (.ok result, t) => savingFiles folder (report.add file.1 result) rest t := by
  obtain ⟨name, text⟩ := file
  rcases hfile : savingFile (Path.join folder name) text s with ⟨outcome, t⟩
  unfold savingFile at hfile
  unfold savingFiles
  rw [saveFiles, run_bind, hfile]
  cases outcome <;> rfl

/-- Files that follow others are saved in the state in which the others have been saved. -/
theorem savingFiles_append (folder : String) (report : SaveReport)
    (before after : List (String × String)) (s : σ) :
    savingFiles folder report (before ++ after) s =
      match savingFiles folder report before s with
      | (.error fault, t) => (.error fault, t)
      | (.ok middle, t) => savingFiles folder middle after t := by
  induction before generalizing report s with
  | nil => rfl
  | cons file rest ih =>
      rw [List.cons_append, savingFiles_cons, savingFiles_cons]
      rcases savingFile (Path.join folder file.1) file.2 s with ⟨outcome, t⟩
      cases outcome with
      | error fault => rfl
      | ok result => exact ih _ _

end Runs

/-! ## Runs over a store -/

/-- The store once the folder of a path is made, with the flag that says whether it is there. -/
def Store.readied (s : Store) (path : String) : Bool × Store :=
  (Path.parent? path).elim (true, s) s.makeFolders

theorem writeInFolder_eq (path text : String) (s : Store) :
    (writeInFolder path text : StateM Store (Except SaveFault SaveResult)).run s =
      match s.readied path with
      | (false, t) => (.error (.noFolder ((Path.parent? path).getD "")), t)
      | (true, t) =>
          match t.write path (.text text) with
          | (true, u) => (.ok .written, u)
          | (false, u) => (.error (.noFile path), u) := by
  have hready : readying path s = s.readied path := rfl
  rw [writeInFolder_run, hready]
  rcases s.readied path with ⟨ready, t⟩
  cases ready with
  | false => rfl
  | true =>
      have hwrite : (FileAccess.writeText path text : StateM Store Bool).run t =
          t.write path (.text text) := rfl
      rcases hdone : t.write path (.text text) with ⟨done, u⟩
      simp only [hwrite, hdone]
      cases done <;> rfl

theorem savingFile_eq (path text : String) (s : Store) :
    savingFile path text s =
      if s.read path = some text then (.ok .unchanged, s)
      else (writeInFolder path text : StateM Store (Except SaveFault SaveResult)).run s :=
  savingFile_run path text s

/-- Saving a file leaves alone what holds its text, writes the file in its folder, or fails. -/
theorem savingFile_cases {path text : String} {s t : Store}
    {outcome : Except SaveFault SaveResult} (h : savingFile path text s = (outcome, t)) :
    (outcome = .ok .unchanged ∧ s.read path = some text ∧ t = s) ∨
    (outcome = .ok .written ∧ s.read path ≠ some text ∧
      (s.readied path).2.write path (.text text) = (true, t)) ∨
    ∃ fault, outcome = .error fault := by
  rw [savingFile_eq] at h
  split at h
  · next hread =>
      cases h
      exact .inl ⟨rfl, hread, rfl⟩
  · next hread =>
      rw [writeInFolder_eq] at h
      rcases hmade : s.readied path with ⟨ready, made⟩
      rw [hmade] at h
      cases ready with
      | false =>
          cases h
          exact .inr (.inr ⟨_, rfl⟩)
      | true =>
          rcases hwrite : made.write path (.text text) with ⟨done, u⟩
          simp only [hwrite] at h
          cases done with
          | false =>
              cases h
              exact .inr (.inr ⟨_, rfl⟩)
          | true =>
              cases h
              exact .inr (.inl ⟨rfl, hread, rfl⟩)

/-! ## One file -/

open Store

/-- A file stands at its location, and nothing else has changed but that folders have been made. -/
structure Placed (path text : String) (s t : Store) (l : Location) : Prop where
  grown : Grown [l] s t
  located : t.locate path = some l
  held : t.lookUp? l = some (.file (.text text))

theorem readied_grown (s : Store) (path : String) : Grown [] s (s.readied path).2 := by
  unfold readied
  cases Path.parent? path with
  | none => exact .refl s []
  | some parent => exact makeFolders_grown s parent

theorem placed_of_read {path text : String} {s : Store} (h : s.read path = some text) :
    ∃ l, Placed path text s s l := by
  obtain ⟨l, hlocate, hheld⟩ := read_eq_some_iff.mp h
  exact ⟨l, .refl _ [l], hlocate, hheld⟩

theorem placed_of_write {path text : String} {s t : Store}
    (h : (s.readied path).2.write path (.text text) = (true, t)) :
    ∃ l, Placed path text s t l := by
  obtain ⟨l, hgrown, hlocate, hheld⟩ := write_grown h
  exact ⟨l, (readied_grown s path).trans hgrown, hlocate, hheld⟩

/-- A file has been saved: it stands at its location, and it is unchanged exactly if it was read
before. -/
structure Saved (path text : String) (s t : Store) (result : SaveResult) (l : Location) : Prop
    extends Placed path text s t l where
  unchanged_iff : result = .unchanged ↔ s.read path = some text

/-- A file whose saving succeeds has been saved. -/
theorem saved_of_saveFile {path text : String} {s t : Store} {result : SaveResult}
    (h : savingFile path text s = (.ok result, t)) : ∃ l, Saved path text s t result l := by
  rcases savingFile_cases h with ⟨hresult, hread, rfl⟩ | ⟨hresult, hread, hwrite⟩ | ⟨fault, h⟩
  · obtain ⟨l, hplaced⟩ := placed_of_read hread
    cases hresult
    exact ⟨l, hplaced, iff_of_true rfl hread⟩
  · obtain ⟨l, hplaced⟩ := placed_of_write hwrite
    cases hresult
    exact ⟨l, hplaced, iff_of_false nofun hread⟩
  · cases h

/-! ## Several files -/

/-- Names and texts can be saved side by side: no two have the same name, and each name is a
single part of a path. -/
structure Separate (files : List (String × String)) : Prop where
  nodup : (files.map Prod.fst).Nodup
  plain : ∀ file ∈ files, '/' ∉ file.1.toList ∧ IsPlain file.1.toList

namespace Separate

theorem of_append (before after : List (String × String)) (h : Separate (before ++ after)) :
    Separate before ∧ Separate after ∧
      ∀ file ∈ before, ∀ other ∈ after, file.1 ≠ other.1 := by
  obtain ⟨hnodup, hplain⟩ := h
  rw [List.map_append, List.nodup_append] at hnodup
  rw [List.forall_mem_append] at hplain
  refine ⟨⟨hnodup.1, hplain.1⟩, ⟨hnodup.2.1, hplain.2⟩, ?_⟩
  intro file hfile other hother
  exact hnodup.2.2 _ (List.mem_map_of_mem hfile) _ (List.mem_map_of_mem hother)

end Separate

/-- Files stand at locations, in order. -/
def Held (folder : String) (files : List (String × String)) (t : Store)
    (locations : List Location) : Prop :=
  List.Forall₂ (fun file l => t.locate (Path.join folder file.1) = some l ∧
    t.lookUp? l = some (.file (.text file.2))) files locations

/-- A location at which one of several files stands ends in the name of the file. -/
theorem Held.exists_name {folder : String} {files : List (String × String)} {t : Store}
    {locations : List Location} (h : Held folder files t locations) (hfiles : Separate files)
    {l : Location} (hl : l ∈ locations) : ∃ file ∈ files, ∃ outer, l = outer ++ [file.1] := by
  obtain ⟨file, hfile, hlocate, -⟩ := exists_left_of_mem h hl
  obtain ⟨hslash, hplain⟩ := hfiles.plain file hfile
  exact ⟨file, hfile, exists_append_of_locate hslash hplain hlocate⟩

/-- A file that is called otherwise than several others stands elsewhere. -/
theorem Held.not_mem {folder : String} {files : List (String × String)} {t : Store}
    {locations : List Location} (h : Held folder files t locations) (hfiles : Separate files)
    {outer : Location} {name : String} (hname : ∀ file ∈ files, file.1 ≠ name) :
    outer ++ [name] ∉ locations := by
  intro hmem
  obtain ⟨file, hfile, other, heq⟩ := h.exists_name hfiles hmem
  obtain ⟨-, hlast⟩ := List.append_inj' heq rfl
  exact hname file hfile (List.singleton_inj.mp hlast).symm

theorem Held.read {folder : String} {files : List (String × String)} {t : Store}
    {locations : List Location} (h : Held folder files t locations) {file : String × String}
    (hfile : file ∈ files) : t.read (Path.join folder file.1) = some file.2 := by
  induction h with
  | nil => cases hfile
  | cons hfirst _ ih =>
      rcases List.mem_cons.mp hfile with rfl | hfile
      · exact read_eq_some_iff.mpr ⟨_, hfirst⟩
      · exact ih hfile

/-- Files stand at their locations, and nothing else has changed but that folders have been made. -/
structure PlacedAll (folder : String) (files : List (String × String)) (s t : Store)
    (locations : List Location) : Prop where
  grown : Grown locations s t
  held : Held folder files t locations

namespace PlacedAll

theorem nil (folder : String) (s : Store) : PlacedAll folder [] s s [] :=
  ⟨.refl s [], .nil⟩

/-- A file that was placed first is still held when the others have been placed. -/
theorem cons {folder : String} {file : String × String} {rest : List (String × String)}
    {s middle t : Store} {l : Location} {locations : List Location}
    (hfiles : Separate (file :: rest))
    (hfirst : Placed (Path.join folder file.1) file.2 s middle l)
    (hall : PlacedAll folder rest middle t locations) :
    PlacedAll folder (file :: rest) s t (l :: locations) := by
  obtain ⟨hone, hrest, hdistinct⟩ := Separate.of_append [file] rest hfiles
  obtain ⟨hslash, hplain⟩ := hone.plain file List.mem_cons_self
  obtain ⟨outer, rfl⟩ := exists_append_of_locate hslash hplain hfirst.located
  have hnot : outer ++ [file.1] ∉ locations :=
    hall.held.not_mem hrest fun other hother =>
      (hdistinct file List.mem_cons_self other hother).symm
  have hkept := (hall.grown.lookUp?_file_iff hnot).mpr hfirst.held
  exact ⟨hfirst.grown.trans hall.grown,
    .cons ⟨hall.grown.locate hfirst.located, hkept⟩ hall.held⟩

end PlacedAll

/-- Files have been saved: they stand at their locations, and the report lists each name once, in
order. -/
structure SavedAll (folder : String) (files : List (String × String)) (s t : Store)
    (locations : List Location) (written unchanged : List String) : Prop
    extends PlacedAll folder files s t locations where
  written_sublist : written.Sublist (files.map Prod.fst)
  unchanged_sublist : unchanged.Sublist (files.map Prod.fst)
  perm : (written ++ unchanged).Perm (files.map Prod.fst)

/-- Files whose saving succeeds have been saved. -/
theorem savedAll_of_saveFiles {folder : String} {files : List (String × String)}
    (hfiles : Separate files) {report final : SaveReport} {s t : Store}
    (h : savingFiles folder report files s = (.ok final, t)) :
    ∃ locations written unchanged,
      SavedAll folder files s t locations written unchanged ∧
        final = ⟨report.written ++ written, report.unchanged ++ unchanged⟩ := by
  -- What a run adds to its report is the same whatever the report holds to begin with.
  induction files generalizing report s with
  | nil =>
      cases h
      exact ⟨[], [], [], ⟨.nil folder _, .refl _, .refl _, .refl _⟩, by simp⟩
  | cons file rest ih =>
      rw [savingFiles_cons] at h
      rcases hfirst : savingFile (Path.join folder file.1) file.2 s with ⟨outcome, middle⟩
      rw [hfirst] at h
      cases outcome with
      | error fault => cases h
      | ok result =>
          obtain ⟨l, hsaved⟩ := saved_of_saveFile hfirst
          obtain ⟨-, hrest, -⟩ := Separate.of_append [file] rest hfiles
          obtain ⟨locations, written, unchanged, hall, rfl⟩ := ih hrest h
          have hplaced := hall.toPlacedAll.cons hfiles hsaved.toPlaced
          cases result with
          | written =>
              refine ⟨_, file.1 :: written, unchanged, ⟨hplaced, ?_, ?_, ?_⟩, ?_⟩
              · exact hall.written_sublist.cons_cons _
              · exact hall.unchanged_sublist.cons _
              · exact hall.perm.cons _
              · simp [SaveReport.add]
          | unchanged =>
              refine ⟨_, written, file.1 :: unchanged, ⟨hplaced, ?_, ?_, ?_⟩, ?_⟩
              · exact hall.written_sublist.cons _
              · exact hall.unchanged_sublist.cons_cons _
              · exact List.perm_middle.trans (hall.perm.cons _)
              · simp [SaveReport.add]

/-- A file is unchanged exactly if it was read in its turn, when the files before it had been
saved. -/
theorem mem_unchanged_iff_read {folder : String} {before after : List (String × String)}
    {file : String × String} (hfiles : Separate (before ++ file :: after)) {final : SaveReport}
    {s t : Store} (h : savingFiles folder .empty (before ++ file :: after) s = (.ok final, t)) :
    ∃ reported middle, savingFiles folder .empty before s = (.ok reported, middle) ∧
      (file.1 ∈ final.unchanged ↔ middle.read (Path.join folder file.1) = some file.2) := by
  obtain ⟨hbefore, hlater, hdistinct⟩ := hfiles.of_append
  obtain ⟨-, hafter, hdistinct'⟩ := Separate.of_append [file] after hlater
  rw [savingFiles_append] at h
  rcases hearly : savingFiles folder .empty before s with ⟨outcome, middle⟩
  rw [hearly] at h
  cases outcome with
  | error fault => cases h
  | ok reported =>
      refine ⟨reported, middle, rfl, ?_⟩
      simp only [savingFiles_cons] at h
      rcases hsave : savingFile (Path.join folder file.1) file.2 middle with ⟨outcome, u⟩
      rw [hsave] at h
      cases outcome with
      | error fault => cases h
      | ok result =>
          obtain ⟨l, hsaved⟩ := saved_of_saveFile hsave
          obtain ⟨_, _, early, hearlier, rfl⟩ := savedAll_of_saveFiles hbefore hearly
          obtain ⟨_, _, late, hlate, rfl⟩ := savedAll_of_saveFiles hafter h
          have hnotEarly : file.1 ∉ early := by
            intro hmem
            obtain ⟨other, hother, heq⟩ :=
              List.mem_map.mp (hearlier.unchanged_sublist.subset hmem)
            exact hdistinct other hother file List.mem_cons_self heq
          have hnotLate : file.1 ∉ late := by
            intro hmem
            obtain ⟨other, hother, heq⟩ := List.mem_map.mp (hlate.unchanged_sublist.subset hmem)
            exact hdistinct' file List.mem_cons_self other hother heq.symm
          rw [← hsaved.unchanged_iff]
          cases result <;> simp [SaveReport.add, SaveReport.empty, hnotEarly, hnotLate]

/-- A path leads to what stands there now whenever it leads anywhere already, or if it does not
lead upward and everything stands in a folder. -/
def Anchored (s : Store) (folder name : String) : Prop :=
  (s.locate (Path.join folder name)).isSome ∨
    s.Closed ∧ ∀ piece ∈ Path.pieces folder, isUpward piece = false

/-- Saving other files does not change what is read at an anchored path. -/
theorem SavedAll.read_iff {folder : String} {files : List (String × String)} {s t : Store}
    {locations : List Location} {written unchanged : List String}
    (h : SavedAll folder files s t locations written unchanged) (hfiles : Separate files)
    {file : String × String} (hslash : '/' ∉ file.1.toList) (hplain : IsPlain file.1.toList)
    (hname : ∀ other ∈ files, other.1 ≠ file.1) (hanchored : Anchored s folder file.1) :
    t.read (Path.join folder file.1) = some file.2 ↔
      s.read (Path.join folder file.1) = some file.2 := by
  rw [read_eq_some_iff, read_eq_some_iff]
  constructor
  · rintro ⟨l, hlocate, htext⟩
    obtain ⟨outer, rfl⟩ := exists_append_of_locate hslash hplain hlocate
    have hbefore := (h.grown.lookUp?_file_iff (h.held.not_mem hfiles hname)).mp htext
    refine ⟨_, ?_, hbefore⟩
    rcases hanchored with hsome | ⟨hclosed, hupward⟩
    · -- What was found before is found at the same place, so both places are the same.
      obtain ⟨m, hm⟩ := Option.isSome_iff_exists.mp hsome
      rw [h.grown.locate hm] at hlocate
      exact hm.trans hlocate
    · exact h.grown.locate_of_closed hclosed hslash hplain hupward hlocate hbefore
  · rintro ⟨l, hlocate, htext⟩
    obtain ⟨outer, rfl⟩ := exists_append_of_locate hslash hplain hlocate
    exact ⟨_, h.grown.locate hlocate,
      (h.grown.lookUp?_file_iff (h.held.not_mem hfiles hname)).mpr htext⟩

/-- A file at an anchored path is unchanged exactly if it was read before any file was saved. -/
theorem mem_unchanged_iff_anchored {folder : String} {before after : List (String × String)}
    {file : String × String} (hfiles : Separate (before ++ file :: after)) {final : SaveReport}
    {s t : Store} (h : savingFiles folder .empty (before ++ file :: after) s = (.ok final, t))
    (hanchored : Anchored s folder file.1) :
    file.1 ∈ final.unchanged ↔ s.read (Path.join folder file.1) = some file.2 := by
  obtain ⟨reported, middle, hearly, hiff⟩ := mem_unchanged_iff_read hfiles h
  obtain ⟨hbefore, hlater, hdistinct⟩ := hfiles.of_append
  obtain ⟨_, _, _, hall, -⟩ := savedAll_of_saveFiles hbefore hearly
  obtain ⟨hslash, hplain⟩ := hlater.plain file List.mem_cons_self
  have hname : ∀ other ∈ before, other.1 ≠ file.1 :=
    fun other hother => hdistinct other hother file List.mem_cons_self
  exact hiff.trans (hall.read_iff hbefore hslash hplain hname hanchored)

/-- Files that are held are left alone when they are saved. -/
theorem saveFiles_again {folder : String} {files : List (String × String)} {t : Store}
    {locations : List Location} (h : Held folder files t locations) (report : SaveReport) :
    savingFiles folder report files t =
      (.ok ⟨report.written, report.unchanged ++ files.map Prod.fst⟩, t) := by
  induction h generalizing report with
  | nil => simp [savingFiles, saveFiles]; rfl
  | cons hfile _ ih =>
      have hread := read_eq_some_iff.mpr ⟨_, hfile⟩
      rw [savingFiles_cons, savingFile_eq, if_pos hread]
      simp [ih, SaveReport.add]

/-! ## The headers of a model -/

section Headers

variable {σ : Type} [FileAccess (StateM σ)] {model : Model} {setting : Header.Setting}
  {folder : String}

/-- Generating the headers of a model where the files are part of a state. -/
def Model.generating (model : Model) (setting : Header.Setting) (folder : String)
    (s : σ) : Except GenerationError SaveReport × σ :=
  (model.generate setting folder : StateM σ (Except GenerationError SaveReport)).run s

theorem Model.generating_eq (model : Model) (s : σ) :
    model.generating setting folder s =
      match model.files setting with
      | .error e => (.error (.derivation e), s)
      | .ok fs =>
          match savingFiles folder .empty fs s with
          | (.error fault, t) => (.error (.saving fault), t)
          | (.ok report, t) => (.ok report, t) := by
  unfold generating generate savingFiles
  cases model.files setting with
  | error e => rfl
  | ok fs =>
      rcases hsaving : (saveFiles folder .empty fs : StateM σ _).run s with ⟨outcome, u⟩
      simp only [run_bind, hsaving]
      cases outcome <;> rfl

/-- Headers are generated if they can be derived and saved. -/
theorem Model.generating_eq_ok_iff {s t : σ} {report : SaveReport} :
    model.generating setting folder s = (.ok report, t) ↔
      ∃ fs, model.files setting = .ok fs ∧
        savingFiles folder .empty fs s = (.ok report, t) := by
  rw [generating_eq]
  cases model.files setting with
  | error e => simp
  | ok fs =>
      rcases hsaving : savingFiles folder .empty fs s with ⟨outcome, u⟩
      cases outcome <;> simp [hsaving]

/-- The name and the text of a previewed file. -/
def Model.PreviewFile.entry (p : Model.PreviewFile) : String × String :=
  (p.path, p.content)

theorem Model.map_fst_entry (ps : List Model.PreviewFile) :
    (ps.map PreviewFile.entry).map Prod.fst = ps.map PreviewFile.path := by
  rw [List.map_map]
  rfl

theorem Model.exists_preview {fs : List (String × String)} (h : model.files setting = .ok fs) :
    ∃ ps, model.preview setting = .ok ps ∧ fs = ps.map PreviewFile.entry := by
  refine ⟨_, preview_eq_ok_iff.mpr ⟨fs, h, rfl⟩, ?_⟩
  rw [List.map_map]
  exact (List.map_id fs).symm

theorem toList_headerFile (name : String) :
    (Target.standard.headerFile name).toList = name.toList ++ ['.', 'h'] := by
  have hextension : ".".toList ++ Target.standard.headerExtension.toList = ['.', 'h'] := rfl
  rw [Target.headerFile, String.toList_append, String.toList_append, List.append_assoc,
    hextension]

theorem isPlain_headerFile (name : String) :
    IsPlain (Target.standard.headerFile name).toList := by
  rw [toList_headerFile]
  refine ⟨by simp [Path.isIdle, List.append_eq_cons_iff], ?_⟩
  have hlast : name.toList ++ ['.', 'h'] ≠ ['.', '.'] := fun h => by
    have := congrArg List.getLast? h
    simp at this
  simp [isUpward, hlast]

/-- The names of a model's declarations hold no slash. -/
def Model.Slashless (model : Model) : Prop :=
  ∀ binding ∈ model.bindings, '/' ∉ (Cpp.naming.roleName binding.1 binding.2).toList

instance (model : Model) : Decidable model.Slashless :=
  inferInstanceAs (Decidable (∀ binding ∈ model.bindings, _))

/-- The files of a model whose names hold no slash can be saved side by side. -/
theorem Model.Slashless.separate {serviceUrl : String} (h : model.Slashless)
    {fs : List (String × String)} (hfs : model.files (standardSetting serviceUrl) = .ok fs) :
    Separate fs := by
  obtain ⟨ds, hds, hnames⟩ := map_fst_files hfs
  obtain ⟨hbind, hunique⟩ := descriptors_eq_ok_iff.mp hds
  constructor
  · rw [hnames, ← Function.comp_def, ← List.map_map]
    exact ((checkUnique_eq_ok_iff ds).mp hunique).1.map (headerFile_injective _)
  · intro file hfile
    have hname := List.mem_map_of_mem (f := Prod.fst) hfile
    rw [hnames] at hname
    obtain ⟨d, hd, heq⟩ := List.mem_map.mp hname
    have hslash := h _ ((mem_bindings_iff hbind).mpr ⟨d, hd, rfl, rfl⟩)
    rw [← heq]
    refine ⟨?_, isPlain_headerFile _⟩
    intro hmem
    have hcs := toList_headerFile (Cpp.naming.descriptorName d) ▸ hmem
    simp only [List.mem_append, List.mem_cons, List.not_mem_nil, or_false] at hcs
    rcases hcs with hcs | hcs | hcs
    · exact hslash hcs
    · exact absurd hcs (by decide)
    · exact absurd hcs (by decide)

/-- What saving the headers of a model in a folder comes to.  Each file is as previewed, and
otherwise nothing has changed but that folders have been made.  The report lists each path once,
in order; a path is unchanged exactly if it held the content in its turn, which is the case
exactly if it did so in the beginning, unless the path is not anchored.  Nothing is written when
the same headers are saved again. -/
structure Model.Generated (model : Model) (setting : Header.Setting) (folder : String)
    (s t : Store) (ps : List PreviewFile) (report : SaveReport) : Prop where
  distinct : (ps.map PreviewFile.path).Nodup
  holds : ∀ p ∈ ps, t.read (Path.join folder p.path) = some p.content
  elsewhere : ∀ l, (∀ p ∈ ps, t.locate (Path.join folder p.path) ≠ some l) →
    t.lookUp? l = s.lookUp? l ∨ s.lookUp? l = none ∧ t.lookUp? l = some .folder
  written : report.written.Sublist (ps.map PreviewFile.path)
  unchanged : report.unchanged.Sublist (ps.map PreviewFile.path)
  disjoint : report.written.Disjoint report.unchanged
  complete : (report.written ++ report.unchanged).Perm (ps.map PreviewFile.path)
  turn : ∀ before p after, ps = before ++ p :: after →
    ∃ reported middle,
      savingFiles folder .empty (before.map PreviewFile.entry) s = (.ok reported, middle) ∧
        (p.path ∈ report.unchanged ↔
          middle.read (Path.join folder p.path) = some p.content)
  initially : ∀ p ∈ ps, Anchored s folder p.path →
    (p.path ∈ report.unchanged ↔ s.read (Path.join folder p.path) = some p.content)
  again : model.generating setting folder t = (.ok ⟨[], ps.map PreviewFile.path⟩, t)

/-- Saving the headers of a model whose names hold no slash makes each file what its preview
shows and reports it. -/
theorem Model.generated_of_generate {serviceUrl : String} (hnames : model.Slashless)
    {s t : Store} {report : SaveReport}
    (h : model.generating (standardSetting serviceUrl) folder s = (.ok report, t)) :
    ∃ ps, model.preview (standardSetting serviceUrl) = .ok ps ∧
      model.Generated (standardSetting serviceUrl) folder s t ps report := by
  obtain ⟨fs, hfs, hsaving⟩ := generating_eq_ok_iff.mp h
  obtain ⟨ps, hps, rfl⟩ := exists_preview hfs
  have hfiles := hnames.separate hfs
  obtain ⟨locations, written, unchanged, hall, hreport⟩ := savedAll_of_saveFiles hfiles hsaving
  obtain rfl : report = ⟨written, unchanged⟩ := hreport
  have hpaths := map_fst_entry ps
  refine ⟨ps, hps, ?_⟩
  constructor
  case distinct => exact hpaths ▸ hfiles.nodup
  case holds =>
    intro p hp
    have hentry : p.entry ∈ ps.map PreviewFile.entry := List.mem_map_of_mem hp
    have hread := hall.held.read hentry
    exact hread
  case elsewhere =>
    intro l hl
    refine hall.grown.elsewhere l fun hmem => ?_
    obtain ⟨file, hfile, hlocate, -⟩ := exists_left_of_mem hall.held hmem
    obtain ⟨p, hp, rfl⟩ := List.mem_map.mp hfile
    exact hl p hp hlocate
  case written => exact hpaths ▸ hall.written_sublist
  case unchanged => exact hpaths ▸ hall.unchanged_sublist
  case disjoint => exact List.disjoint_of_nodup_append (hall.perm.nodup_iff.mpr hfiles.nodup)
  case complete => exact hpaths ▸ hall.perm
  case turn =>
    rintro before p after rfl
    rw [List.map_append, List.map_cons] at hfiles hsaving
    exact mem_unchanged_iff_read hfiles hsaving
  case initially =>
    intro p hp hanchored
    obtain ⟨before, after, rfl⟩ := List.append_of_mem hp
    rw [List.map_append, List.map_cons] at hfiles hsaving
    exact mem_unchanged_iff_anchored hfiles hsaving hanchored
  case again =>
    refine generating_eq_ok_iff.mpr ⟨_, hfs, ?_⟩
    rw [saveFiles_again hall.held, hpaths]
    rfl

end Headers

/-! ## Two headers -/

/-- A model with two enumerations. -/
def paletteModel : Model :=
  ((Model.new "demo").addEnum (emptyEnum "color")).addEnum (emptyEnum "shade")

theorem slashless_paletteModel : paletteModel.Slashless := by
  decide +kernel

/-- The text of a header of the palette. -/
def paletteText (name : String) : String :=
  ((emptyEnum name).dataEntity .standard).fileText .standard paletteModel.headerSpace

/-- The headers of the palette as they are shown. -/
def palettePreview : List Model.PreviewFile :=
  [⟨"Color.h", paletteText "color"⟩, ⟨"Shade.h", paletteText "shade"⟩]

/-- Saving the headers of the palette. -/
def savingPalette (folder : String) (s : Store) : Except GenerationError SaveReport × Store :=
  paletteModel.generating (Model.standardSetting Model.defaultServiceUrl) folder s

theorem savingPalette_of_savingFiles {folder : String} {s t : Store} {report : SaveReport}
    (h : savingFiles folder .empty
      [("Color.h", paletteText "color"), ("Shade.h", paletteText "shade")] s = (.ok report, t)) :
    savingPalette folder s = (.ok report, t) :=
  Model.generating_eq_ok_iff.mpr ⟨_, rfl, h⟩

/-- A working folder that holds two files and empty folders. -/
def paletteStore (color shade : Content) (folders : List String) : Store where
  here := ["work"]
  entries := [(["work"], .folder), (["work", "Color.h"], .file color),
    (["work", "Shade.h"], .file shade)] ++ folders.map fun name => (["work", name], .folder)

/-- A file that holds no text is written, and one that holds its text is left alone. -/
theorem savingPalette_binary :
    savingPalette "" (paletteStore (.text (paletteText "color")) .binary []) =
      (.ok ⟨["Shade.h"], ["Color.h"]⟩,
        paletteStore (.text (paletteText "color")) (.text (paletteText "shade")) []) := by
  apply savingPalette_of_savingFiles
  -- What the headers say does not matter for how they are saved.
  generalize paletteText "color" = color, paletteText "shade" = shade
  have hcolor : (paletteStore (.text color) .binary []).read (Path.join "" "Color.h") =
      some color := rfl
  have hshade : (paletteStore (.text color) .binary []).read (Path.join "" "Shade.h") =
      none := rfl
  have hready : (paletteStore (.text color) .binary []).readied (Path.join "" "Shade.h") =
      (true, paletteStore (.text color) .binary []) := rfl
  have hwrite : (paletteStore (.text color) .binary []).write (Path.join "" "Shade.h")
      (.text shade) = (true, paletteStore (.text color) (.text shade) []) := rfl
  rw [savingFiles_cons, savingFile_eq, if_pos hcolor]
  simp only
  rw [savingFiles_cons, savingFile_eq, hshade, if_neg nofun, writeInFolder_eq, hready]
  simp only [hwrite]
  rfl

/-- If a header cannot be read, it is written again. -/
theorem paletteModel_generated :
    paletteModel.Slashless ∧ ∃ s t,
      savingPalette "" s = (.ok ⟨["Shade.h"], ["Color.h"]⟩, t) ∧
        ∃ ps, paletteModel.preview (Model.standardSetting Model.defaultServiceUrl) = .ok ps ∧
          paletteModel.Generated (Model.standardSetting Model.defaultServiceUrl) "" s t ps
            ⟨["Shade.h"], ["Color.h"]⟩ := by
  exact ⟨slashless_paletteModel, _, _, savingPalette_binary,
    Model.generated_of_generate slashless_paletteModel savingPalette_binary⟩

/-- If the path of the folder leads through a missing folder and upward again, the first header
is not found where it stands, so that the missing folder is made and the header is written.  The
second one is found then. -/
theorem savingPalette_upward :
    savingPalette "a/.."
      (paletteStore (.text (paletteText "color")) (.text (paletteText "shade")) []) =
      (.ok ⟨["Color.h"], ["Shade.h"]⟩,
        paletteStore (.text (paletteText "color")) (.text (paletteText "shade")) ["a"]) := by
  apply savingPalette_of_savingFiles
  generalize paletteText "color" = color, paletteText "shade" = shade
  have hcolor : (paletteStore (.text color) (.text shade) []).read
      (Path.join "a/.." "Color.h") = none := rfl
  have hready : (paletteStore (.text color) (.text shade) []).readied
      (Path.join "a/.." "Color.h") =
        (true, paletteStore (.text color) (.text shade) ["a"]) := rfl
  have hwrite : (paletteStore (.text color) (.text shade) ["a"]).write
      (Path.join "a/.." "Color.h") (.text color) =
        (true, paletteStore (.text color) (.text shade) ["a"]) := rfl
  have hshade : (paletteStore (.text color) (.text shade) ["a"]).read
      (Path.join "a/.." "Shade.h") = some shade := rfl
  rw [savingFiles_cons, savingFile_eq, hcolor, if_neg nofun, writeInFolder_eq, hready]
  simp only [hwrite]
  rw [savingFiles_cons, savingFile_eq, if_pos hshade]
  rfl

/-- Which headers are unchanged need not depend on what the store held beforehand, neither where
the paths led then nor where they lead now. -/
theorem paletteModel_upward_report :
    paletteModel.Slashless ∧
      paletteModel.preview (Model.standardSetting Model.defaultServiceUrl) =
        .ok palettePreview ∧
      ∃ s t report, savingPalette "a/.." s = (.ok report, t) ∧
        (¬ ∀ p ∈ palettePreview, p.path ∈ report.unchanged ↔
          s.read (Path.join "a/.." p.path) = some p.content) ∧
        ¬ ∀ p ∈ palettePreview, p.path ∈ report.unchanged ↔
          (t.locate (Path.join "a/.." p.path)).bind s.lookUp? =
            some (.file (.text p.content)) := by
  refine ⟨slashless_paletteModel, rfl, _, _, _, savingPalette_upward, ?_, ?_⟩
  · intro h
    have hshade := (h ⟨"Shade.h", paletteText "shade"⟩ (by simp [palettePreview])).mp (by simp)
    cases hshade
  · intro h
    have hcolor := (h ⟨"Color.h", paletteText "color"⟩ (by simp [palettePreview])).mpr rfl
    simp at hcolor

end SdkHeaders
