import SdkHeaders.Proofs.Attempts

/-!
# Interrupted saving

What a disk holds if the headers of a model cannot be generated.  Nothing is touched unless all
headers can be derived.  If one of them cannot be saved, whatever goes wrong, those before it have
been saved, and those after it are not reached; folders may have been made on the way, and the file
of the header that could not be saved may hold anything.

Main results:

- Theorems `Disk.placedAll_of_savingFiles` and `Anchored.savingFiles` follow a run on a disk.
- Structure `Model.Stopped` says what a run comes to that fails at one header.
- Theorem `Model.generating_failure`: every failing run fails in derivation and touches nothing, or
  comes to this.
- Theorem `Model.generating_sound`: a disk on which nothing goes wrong is like its store.
- Theorem `paletteModel_stopped_upward`: if the path of the folder leads upward, a folder may appear
  at the path of a later header.
-/

namespace SdkHeaders

open Store

/-! ## Several files -/

section Several

variable {folder : String} {files : List (String × String)} {d d' : Disk}

/-- Files whose saving succeeds have been placed, even if something went wrong on the way. -/
theorem Disk.placedAll_of_savingFiles (hfiles : Separate files) {report final : SaveReport}
    (h : savingFiles folder report files d = (.ok final, d')) :
    ∃ locations, PlacedAll folder files d.store d'.store locations := by
  induction files generalizing report d with
  | nil =>
      cases h
      exact ⟨[], .nil folder _⟩
  | cons file rest ih =>
      rw [savingFiles_cons] at h
      rcases hfirst : savingFile (Path.join folder file.1) file.2 d with ⟨outcome, middle⟩
      rw [hfirst] at h
      cases outcome with
      | error fault => cases h
      | ok result =>
          obtain ⟨l, hplaced⟩ := (attempt_of_savingFile hfirst).placed result rfl
          obtain ⟨-, hrest, -⟩ := Separate.of_append [file] rest hfiles
          obtain ⟨locations, hall⟩ := ih hrest h
          exact ⟨_, hall.cons hfiles hplaced⟩

/-- Saving other files does not change what stands at an anchored path. -/
theorem Anchored.savingFiles {name : String} (hfiles : Separate files)
    (hslash : '/' ∉ name.toList) (hplain : IsPlain name.toList)
    (hother : ∀ file ∈ files, file.1 ≠ name) {report : SaveReport}
    {outcome : Except SaveFault SaveReport} (h : Anchored d.store folder name)
    (hsaving : savingFiles folder report files d = (outcome, d')) :
    Anchored d'.store folder name ∧
      d'.store.entryAt? (Path.join folder name) = d.store.entryAt? (Path.join folder name) := by
  induction files generalizing report d with
  | nil =>
      cases hsaving
      exact ⟨h, rfl⟩
  | cons file rest ih =>
      obtain ⟨hone, hrest, -⟩ := Separate.of_append [file] rest hfiles
      obtain ⟨hslash', hplain'⟩ := hone.plain file List.mem_cons_self
      rw [List.forall_mem_cons] at hother
      rw [savingFiles_cons] at hsaving
      rcases hfirst : savingFile (Path.join folder file.1) file.2 d with ⟨result, middle⟩
      obtain ⟨hanchored, hentry⟩ := h.tried hslash hplain hslash' hplain' hother.1
        (Disk.attempt_of_savingFile hfirst).tried
      rw [hfirst] at hsaving
      cases result with
      | error fault =>
          cases hsaving
          exact ⟨hanchored, hentry⟩
      | ok result =>
          obtain ⟨hlast, hentry'⟩ := ih hrest hother.2 hanchored hsaving
          exact ⟨hlast, hentry'.trans hentry⟩

/-- Files stay where they are while a store grows elsewhere. -/
theorem Held.of_grown {s t : Store} {locations touched : List Location}
    (h : Held folder files s locations) (hgrown : Grown touched s t)
    (hnot : ∀ l ∈ locations, l ∉ touched) : Held folder files t locations := by
  induction h with
  | nil => exact .nil
  | cons hfile _ ih =>
      rw [List.forall_mem_cons] at hnot
      exact .cons ⟨hgrown.locate hfile.1, (hgrown.lookUp?_file_iff hnot.1).mpr hfile.2⟩ (ih hnot.2)

end Several

/-! ## Runs that fail -/

section Failing

variable {σ : Type} [FileAccess (StateM σ)]

/-- A run that fails has saved some files and fails at the next one. -/
theorem exists_failed_of_savingFiles {folder : String} {report : SaveReport}
    {files : List (String × String)} {s t : σ} {fault : SaveFault}
    (h : savingFiles folder report files s = (.error fault, t)) :
    ∃ before file after reported middle, files = before ++ file :: after ∧
      savingFiles folder report before s = (.ok reported, middle) ∧
        savingFile (Path.join folder file.1) file.2 middle = (.error fault, t) := by
  induction files generalizing report s with
  | nil => cases h
  | cons file rest ih =>
      rw [savingFiles_cons] at h
      rcases hfirst : savingFile (Path.join folder file.1) file.2 s with ⟨result, middle⟩
      rw [hfirst] at h
      cases result with
      | error other =>
          cases h
          exact ⟨[], file, rest, report, s, rfl, rfl, hfirst⟩
      | ok result =>
          obtain ⟨before, failed, after, reported, last, rfl, hbefore, hfailed⟩ := ih h
          refine ⟨file :: before, failed, after, reported, last, rfl, ?_, hfailed⟩
          rw [savingFiles_cons, hfirst]
          exact hbefore

/-- A run fails with the failure of the first file that cannot be saved. -/
theorem savingFiles_of_failed {folder : String} {report reported : SaveReport}
    {before after : List (String × String)} {file : String × String} {s middle t : σ}
    {fault : SaveFault} (hbefore : savingFiles folder report before s = (.ok reported, middle))
    (hfailed : savingFile (Path.join folder file.1) file.2 middle = (.error fault, t)) :
    savingFiles folder report (before ++ file :: after) s = (.error fault, t) := by
  rw [savingFiles_append, hbefore]
  simp only [savingFiles_cons, hfailed]

variable {model : Model} {setting : Header.Setting} {folder : String}

theorem Model.files_of_preview {ps : List PreviewFile} (h : model.preview setting = .ok ps) :
    model.files setting = .ok (ps.map PreviewFile.entry) := by
  obtain ⟨fs, hfs, rfl⟩ := preview_eq_ok_iff.mp h
  rw [hfs, List.map_map]
  exact congrArg Except.ok (List.map_id fs).symm

/-- A run over the headers of a model fails as saving them does. -/
theorem Model.generating_of_failed {s t : σ} {fs : List (String × String)} {fault : SaveFault}
    (hfs : model.files setting = .ok fs)
    (h : savingFiles folder .empty fs s = (.error fault, t)) :
    model.generating setting folder s = (.error (.saving fault), t) := by
  rw [generating_eq, hfs]
  simp only [h]

/-- A run over the headers of a model fails in derivation, and then nothing is touched, or fails as
saving them does. -/
theorem Model.failed_of_generating {s t : σ} {error : GenerationError}
    (h : model.generating setting folder s = (.error error, t)) :
    (∃ e, model.files setting = .error e ∧ error = .derivation e ∧ t = s) ∨
      ∃ fs fault, model.files setting = .ok fs ∧ error = .saving fault ∧
        savingFiles folder .empty fs s = (.error fault, t) := by
  rw [generating_eq] at h
  cases hfs : model.files setting with
  | error e =>
      simp only [hfs] at h
      cases h
      exact .inl ⟨e, rfl, rfl, rfl⟩
  | ok fs =>
      rcases hsaving : savingFiles folder .empty fs s with ⟨outcome, u⟩
      simp only [hfs, hsaving] at h
      cases outcome with
      | ok report => cases h
      | error fault =>
          cases h
          exact .inr ⟨fs, fault, rfl, rfl, hsaving⟩

end Failing

/-! ## Headers on a disk -/

section Headers

variable {model : Model} {setting : Header.Setting} {folder : String} {d d' : Disk}

/-- A run over the headers of a model has come to an end at one of them, which could not be saved.
The headers before it hold their contents, and apart from them and from that header nothing has
changed but that folders have been made.  Nothing has changed at all where the path of a later
header leads, unless the path is not anchored. -/
structure Model.Stopped (model : Model) (setting : Header.Setting) (folder : String)
    (d d' : Disk) (before : List PreviewFile) (p : PreviewFile) (after : List PreviewFile)
    (fault : SaveFault) : Prop where
  result : model.generating setting folder d = (.error (.saving fault), d')
  fault : fault = .noFolder ((Path.parent? (Path.join folder p.path)).getD "") ∨
    fault = .noFile (Path.join folder p.path)
  holds : ∀ q ∈ before, d'.store.read (Path.join folder q.path) = some q.content
  elsewhere : ∀ l, (∀ q ∈ before ++ [p], d'.store.locate (Path.join folder q.path) ≠ some l) →
    d'.store.lookUp? l = d.store.lookUp? l ∨
      d.store.lookUp? l = none ∧ d'.store.lookUp? l = some .folder
  later : ∀ q ∈ after, Anchored d.store folder q.path →
    d'.store.entryAt? (Path.join folder q.path) = d.store.entryAt? (Path.join folder q.path)

/-- If a header of a model cannot be saved after those before it have been saved, the run has come
to an end there. -/
theorem Model.stopped_of_failed {serviceUrl : String} (hnames : model.Slashless)
    {before after : List PreviewFile} {p : PreviewFile} {reported : SaveReport} {middle : Disk}
    {fault : SaveFault}
    (hps : model.preview (standardSetting serviceUrl) = .ok (before ++ p :: after))
    (hbefore : savingFiles folder .empty (before.map PreviewFile.entry) d = (.ok reported, middle))
    (hfailed : savingFile (Path.join folder p.path) p.content middle = (.error fault, d')) :
    model.Stopped (standardSetting serviceUrl) folder d d' before p after fault := by
  have hfs := files_of_preview hps
  have hfiles := hnames.separate hfs
  rw [List.map_append, List.map_cons] at hfs hfiles
  obtain ⟨hearlier, hlater, hdistinct⟩ := hfiles.of_append
  obtain ⟨-, hafter, hdistinct'⟩ := Separate.of_append [p.entry] _ hlater
  obtain ⟨hslash, hplain⟩ := hlater.plain p.entry List.mem_cons_self
  obtain ⟨locations, hall⟩ := Disk.placedAll_of_savingFiles hearlier hbefore
  have hattempt := Disk.attempt_of_savingFile hfailed
  obtain ⟨touched, hgrown, htouched⟩ := hattempt.tried.grown hslash hplain
  -- The header that could not be saved is called otherwise than those before it.
  have hheld : Held folder (before.map PreviewFile.entry) d'.store locations := by
    refine hall.held.of_grown hgrown fun l hl hmem => ?_
    obtain ⟨outer, rfl⟩ := exists_append_of_locate hslash hplain (htouched l hmem)
    exact hall.held.not_mem hearlier
      (fun file hfile => hdistinct file hfile p.entry List.mem_cons_self) hl
  constructor
  case result => exact generating_of_failed hfs (savingFiles_of_failed hbefore hfailed)
  case fault => exact hattempt.fault fault rfl
  case holds =>
    intro q hq
    have hentry : q.entry ∈ before.map PreviewFile.entry := List.mem_map_of_mem hq
    have hread := hheld.read hentry
    exact hread
  case elsewhere =>
    intro l hl
    refine (hall.grown.trans hgrown).elsewhere l fun hmem => ?_
    rcases List.mem_append.mp hmem with hmem | hmem
    · obtain ⟨file, hfile, hlocate, -⟩ := exists_left_of_mem hheld hmem
      obtain ⟨q, hq, rfl⟩ := List.mem_map.mp hfile
      exact hl q (List.mem_append_left [p] hq) hlocate
    · exact hl p (List.mem_append_right before List.mem_cons_self) (htouched l hmem)
  case later =>
    intro q hq hanchored
    have hmem : q.entry ∈ after.map PreviewFile.entry := List.mem_map_of_mem hq
    obtain ⟨hslash', hplain'⟩ := hafter.plain q.entry hmem
    have hother : ∀ file ∈ before.map PreviewFile.entry, file.1 ≠ q.path :=
      fun file hfile => hdistinct file hfile q.entry (List.mem_cons_of_mem _ hmem)
    obtain ⟨hmiddle, hentry⟩ := hanchored.savingFiles hearlier hslash' hplain' hother hbefore
    obtain ⟨-, hlast⟩ := hmiddle.tried hslash' hplain' hslash hplain
      (hdistinct' p.entry List.mem_cons_self q.entry hmem) hattempt.tried
    exact hlast.trans hentry

/-- What a run over the headers of a model comes to that fails, whatever goes wrong on the disk.  If
the headers cannot be derived, this is told and nothing is touched.  If a header cannot be saved
after those before it have been saved, the run has come to an end there.  There are no other ways to
fail. -/
theorem Model.generating_failure (model : Model) (serviceUrl folder : String) (d : Disk) :
    (∀ e, model.descriptors (standardSetting serviceUrl) = .error e →
      model.generating (standardSetting serviceUrl) folder d = (.error (.derivation e), d)) ∧
    (model.Slashless → ∀ before p after,
      model.preview (standardSetting serviceUrl) = .ok (before ++ p :: after) →
        ∀ reported middle fault d',
          savingFiles folder .empty (before.map PreviewFile.entry) d = (.ok reported, middle) →
            savingFile (Path.join folder p.path) p.content middle = (.error fault, d') →
              model.Stopped (standardSetting serviceUrl) folder d d' before p after fault) ∧
    (model.Slashless → ∀ error d',
      model.generating (standardSetting serviceUrl) folder d = (.error error, d') →
        (∃ e, model.descriptors (standardSetting serviceUrl) = .error e ∧
          error = .derivation e ∧ d' = d) ∨
        ∃ before p after fault,
          model.preview (standardSetting serviceUrl) = .ok (before ++ p :: after) ∧
            error = .saving fault ∧
              model.Stopped (standardSetting serviceUrl) folder d d' before p after fault) := by
  refine ⟨?_, ?_, ?_⟩
  · intro e he
    rw [generating_eq, (stages_of_clash he).2.1]
  · intro hnames before p after hps reported middle fault d' hbefore hfailed
    exact stopped_of_failed hnames hps hbefore hfailed
  · intro hnames error d' h
    rcases failed_of_generating h with ⟨e, hfs, rfl, rfl⟩ | ⟨fs, fault, hfs, rfl, hsaving⟩
    · cases hds : model.descriptors (standardSetting serviceUrl) with
      | error clash =>
          obtain rfl : e = clash := Except.error.inj (hfs.symm.trans (stages_of_clash hds).2.1)
          exact .inl ⟨e, rfl, rfl, rfl⟩
      | ok ds =>
          obtain ⟨es, fs, ps, -, hok, -, -⟩ := stages_of_descriptors hds
          cases hfs.symm.trans hok
    · obtain ⟨ps, hps, rfl⟩ := exists_preview hfs
      obtain ⟨before, file, after, reported, middle, hsplit, hbefore, hfailed⟩ :=
        exists_failed_of_savingFiles hsaving
      obtain ⟨before, rest, rfl, rfl, hrest⟩ := List.map_eq_append_iff.mp hsplit
      obtain ⟨p, after, rfl, rfl, rfl⟩ := List.map_eq_cons_iff.mp hrest
      exact .inr ⟨before, p, after, fault, hps, rfl,
        stopped_of_failed hnames hps hbefore hfailed⟩

end Headers

/-! ## Sound disks -/

section Sound

theorem readying_sound (path : String) (s : Store) :
    readying path (Disk.sound s) = ((s.readied path).1, .sound (s.readied path).2) := by
  unfold readying readied
  cases Path.parent? path with
  | none => rfl
  | some parent =>
      change Disk.makeFolders (.sound s) parent = _
      unfold Disk.makeFolders
      split
      · next hempty => rw [Option.elim_some, Store.makeFolders, if_pos hempty]
      · rfl

theorem savingFile_sound (path text : String) (s : Store) :
    savingFile path text (Disk.sound s) =
      ((savingFile path text s).1, .sound (savingFile path text s).2) := by
  have hread : (FileAccess.readText path : StateM Disk (Option String)).run (.sound s) =
      (s.read path, .sound s) := rfl
  rw [savingFile_run, hread, savingFile_eq]
  by_cases hheld : s.read path = some text
  · simp only [hheld, if_true]
  · simp only [hheld, if_false]
    rw [writeInFolder_run path text (Disk.sound s), readying_sound, writeInFolder_eq]
    rcases s.readied path with ⟨ready, t⟩
    cases ready with
    | false => rfl
    | true =>
        have hwrite : (FileAccess.writeText path text : StateM Disk Bool).run (.sound t) =
            ((t.write path (.text text)).1, .sound (t.write path (.text text)).2) := rfl
        simp only [hwrite]
        rcases t.write path (.text text) with ⟨done, u⟩
        cases done <;> rfl

theorem savingFiles_sound (folder : String) (report : SaveReport)
    (files : List (String × String)) (s : Store) :
    savingFiles folder report files (Disk.sound s) =
      ((savingFiles folder report files s).1, .sound (savingFiles folder report files s).2) := by
  induction files generalizing report s with
  | nil => rfl
  | cons file rest ih =>
      rw [savingFiles_cons, savingFiles_cons, savingFile_sound]
      rcases savingFile (Path.join folder file.1) file.2 s with ⟨outcome, t⟩
      cases outcome with
      | error fault => rfl
      | ok result => exact ih _ t

/-- Generating headers on a disk on which nothing goes wrong does what it does in the store. -/
theorem Model.generating_sound (model : Model) (setting : Header.Setting) (folder : String)
    (s : Store) :
    model.generating setting folder (Disk.sound s) =
      ((model.generating setting folder s).1, .sound (model.generating setting folder s).2) := by
  rw [generating_eq, generating_eq]
  cases model.files setting with
  | error e => rfl
  | ok fs =>
      simp only [savingFiles_sound]
      rcases savingFiles folder .empty fs s with ⟨outcome, t⟩
      cases outcome <;> rfl

end Sound

/-! ## Two headers -/

/-- A working folder in which there is nothing but a folder. -/
def Store.holding (name : String) : Store :=
  ((Store.empty ["work"]).makeFolders name).2

theorem Store.closed_holding (name : String) : (holding name).Closed :=
  (closed_empty _).makeFolders name

/-- A working folder in which saving goes well but for the fourth operation, which leaves the file
that it writes with something else. -/
def Disk.tornFourth : Disk :=
  ⟨Store.empty ["work"], [none, none, none, some (.torn (.text "#pragma"))]⟩

/-- If the disk is full when the second header is written, the first one has been saved. -/
theorem paletteModel_stopped :
    paletteModel.Slashless ∧ ∃ d,
      paletteModel.Stopped (Model.standardSetting Model.defaultServiceUrl) "" Disk.tornFourth d
        [⟨"Color.h", paletteText "color"⟩] ⟨"Shade.h", paletteText "shade"⟩ []
        (.noFile "Shade.h") ∧ d.store.read "Shade.h" = some "#pragma" := by
  have hpreview : paletteModel.preview (Model.standardSetting Model.defaultServiceUrl) =
      .ok palettePreview := rfl
  have hstop := (Model.generating_failure paletteModel Model.defaultServiceUrl ""
    Disk.tornFourth).2.1 slashless_paletteModel [⟨"Color.h", paletteText "color"⟩]
      ⟨"Shade.h", paletteText "shade"⟩ [] hpreview
  generalize paletteText "color" = color, paletteText "shade" = shade at hstop ⊢
  let written := ((Store.empty ["work"]).write "Color.h" (.text color)).2
  have hcolor : savingFiles "" .empty [("Color.h", color)] Disk.tornFourth =
      (.ok ⟨["Color.h"], []⟩, ⟨written, [none, some (.torn (.text "#pragma"))]⟩) := rfl
  have hshade : savingFile (Path.join "" "Shade.h") shade
      (⟨written, [none, some (.torn (.text "#pragma"))]⟩ : Disk) =
        (.error (.noFile "Shade.h"),
          ⟨(written.write "Shade.h" (.text "#pragma")).2, []⟩) := rfl
  exact ⟨slashless_paletteModel, _, hstop _ _ _ _ hcolor hshade, rfl⟩

/-- If the path of the folder leads through the place of the second header and upward again, the
first header is refused only after a folder has been made there. -/
theorem savingPalette_blocked :
    paletteModel.generating (Model.standardSetting Model.defaultServiceUrl) "Shade.h/.."
        (Disk.sound (Store.holding "Color.h")) =
      (.error (.saving (.noFile "Shade.h/../Color.h")),
        .sound ((Store.holding "Color.h").makeFolders "Shade.h").2) := by
  refine Model.generating_of_failed rfl ?_
  generalize paletteText "color" = color, paletteText "shade" = shade
  rfl

/-- What stands at the path of a later header may change although the run has not come to it. -/
theorem paletteModel_stopped_upward :
    ¬ ∀ (model : Model) (serviceUrl folder : String) (d d' : Disk) (before after p fault),
      model.Slashless → d.store.Closed →
        model.preview (Model.standardSetting serviceUrl) = .ok (before ++ p :: after) →
          model.generating (Model.standardSetting serviceUrl) folder d =
            (.error (.saving fault), d') →
            fault = .noFile (Path.join folder p.path) →
              ∀ q ∈ after, d'.store.entryAt? (Path.join folder q.path) =
                d.store.entryAt? (Path.join folder q.path) := by
  intro h
  have hsame := h paletteModel Model.defaultServiceUrl "Shade.h/.."
    (.sound (Store.holding "Color.h")) _ [] [⟨"Shade.h", paletteText "shade"⟩]
    ⟨"Color.h", paletteText "color"⟩ _ slashless_paletteModel (Store.closed_holding "Color.h") rfl
    savingPalette_blocked rfl _ (List.mem_singleton.mpr rfl)
  revert hsame
  decide +kernel

end SdkHeaders
