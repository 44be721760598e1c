import SdkHeaders.Proofs.NameCharacters
import SdkHeaders.Proofs.Saving

/-!
# Headers in their folder

Whether the headers of a model are saved directly in the folder that they are meant for.  The
names of a model are spelled out in the names of its headers, slashes included, and a slash in the
name of a header is taken to separate folders.

Main results:

- Theorem `Cpp.slash_mem_roleName_iff`: the name of a declaration holds a slash exactly if a name
  of its element does.
- Theorem `Store.exists_locateFolder`: a path that consists of a single name leads directly into
  the folder.
- Structure `Contained` says that headers are kept in their folder, each in a file of its own, and
  theorem `Model.contained_iff` that they are exactly if no name of the model holds a slash.
- Theorem `strayModel_not_contained`: there are models whose headers are not.
-/

namespace SdkHeaders

open Header Store

/-! ## Slashes in names -/

namespace Text

/-- Capitalizing a name neither adds nor removes slashes. -/
theorem slash_mem_capitalize_iff (s : String) :
    '/' ∈ (capitalize s).toList ↔ '/' ∈ s.toList := by
  rw [capitalize, String.toList_ofList]
  cases s.toList with
  | nil => rfl
  | cons c rest =>
      by_cases hc : c = '/'
      · subst hc
        exact iff_of_true (List.mem_cons_self) List.mem_cons_self
      · have hupper : '/' ∉ upper c := not_mem_upper (by decide) hc
        simp [capitalizeChars, hupper, Ne.symm hc]

end Text

namespace Cpp

theorem slash_mem_safeName_iff (name : String) :
    '/' ∈ (naming.safeName name).toList ↔ '/' ∈ name.toList := by
  unfold Naming.safeName
  split
  · next hreserved =>
      have hall : ∀ word ∈ keywords, '/' ∉ word.toList ∧ '/' ∉ (word ++ "_").toList := by
        decide +kernel
      obtain ⟨hword, hescape⟩ := hall name (List.contains_iff_mem.mp hreserved)
      exact iff_of_false hescape hword
  · rfl

theorem slash_mem_baseName_iff (element : Element) :
    '/' ∈ (naming.baseName element).toList ↔ ∃ name ∈ element.names, '/' ∈ name.toList := by
  have htype : ∀ name, '/' ∈ (naming.toType name).toList ↔ '/' ∈ name.toList :=
    Text.slash_mem_capitalize_iff
  cases element <;>
    simp [Naming.baseName, Naming.collectionName, Element.names, htype]

/-- The name of a declaration holds a slash exactly if a name of its element does. -/
theorem slash_mem_roleName_iff (element : Element) (role : Role) :
    '/' ∈ (naming.roleName element role).toList ↔ ∃ name ∈ element.names, '/' ∈ name.toList := by
  have hsuffix : '/' ∉ role.suffix.toList := by
    cases role <;> simp only [Role.suffix] <;> decide
  rw [Naming.roleName, slash_mem_safeName_iff, ← slash_mem_baseName_iff]
  cases role.facet <;> simp [Naming.faceted, hsuffix]

end Cpp

/-! ## Single names -/

namespace Path

/-- A path that consists of a single name, which neither names nothing nor leads upward. -/
def IsSingleName (path : String) : Prop :=
  ∃ piece, pieces path = [piece] ∧ IsPlain piece

end Path

/-- The path of a header consists of a single name exactly if the name of the declaration holds no
slash. -/
theorem isSingleName_headerFile_iff (name : String) :
    Path.IsSingleName (Target.standard.headerFile name) ↔ '/' ∉ name.toList := by
  have hfile : '/' ∈ (Target.standard.headerFile name).toList ↔ '/' ∈ name.toList := by
    simp [toList_headerFile]
  constructor
  · rintro ⟨piece, hpieces, -⟩ hslash
    obtain ⟨before, after, hsplit⟩ := List.append_of_mem (hfile.mpr hslash)
    rw [Path.pieces, hsplit, Text.splitAtChar_append] at hpieces
    have hlength := congrArg List.length hpieces
    have hnonempty : ∀ cs, 0 < (Text.splitAtChar '/' cs).length := fun cs =>
      List.length_pos_iff.mpr (Text.splitAtChar_ne_nil cs)
    have hbefore := hnonempty before
    have hafter := hnonempty after
    simp only [List.length_append, List.length_singleton] at hlength
    omega
  · intro hslash
    exact ⟨_, Text.splitAtChar_of_not_mem (mt hfile.mp hslash), isPlain_headerFile name⟩

/-! ## Files in a folder -/

namespace Store

/-- The location of a folder.  The empty path stands for the working folder. -/
def locateFolder (s : Store) (folder : String) : Option Location :=
  if folder = "" then some s.here else s.locate folder

section Folder

variable {s : Store} {folder name : String}

/-- The path of a file in a folder starts with that of the folder. -/
theorem exists_join_eq_append (hne : folder ≠ "") (hslash : '/' ∉ name.toList) :
    ∃ rest, Path.join folder name = folder ++ rest := by
  unfold Path.join
  rw [Path.isAbsolute_of_not_mem hslash, if_neg Bool.false_ne_true, if_neg hne]
  split
  · exact ⟨name, rfl⟩
  · exact ⟨"/" ++ name, String.append_assoc⟩

theorem isUsable_of_append {rest : String} (hne : folder ≠ "")
    (h : isUsable (folder ++ rest) = true) : isUsable folder = true := by
  simp only [isUsable, String.toList_append, String.utf8ByteSize_append, Bool.and_eq_true,
    Bool.not_eq_true', decide_eq_true_eq, List.contains_append, Bool.or_eq_false_iff] at h ⊢
  exact ⟨⟨hne, h.1.2.1⟩, by omega⟩

theorem start_append {rest : String} (hne : folder ≠ "") :
    s.start (folder ++ rest) = s.start folder := by
  have hhead : folder.toList ≠ [] := fun h => hne (String.toList_inj.mp h)
  obtain ⟨c, more, hcs⟩ := List.exists_cons_of_ne_nil hhead
  simp [start, Path.isAbsolute, hcs]

/-- A path that consists of a single name leads directly into the folder. -/
theorem exists_locateFolder (hslash : '/' ∉ name.toList) (hplain : IsPlain name.toList)
    {l : Location} (h : s.locate (Path.join folder name) = some l) :
    ∃ outer, s.locateFolder folder = some outer ∧ l = outer ++ [name] := by
  obtain ⟨parts, hway, hlocate⟩ := locate_join_eq_some_iff folder hslash
  obtain ⟨husable, outer, houter, hlast⟩ := (hlocate s l).mp h
  have hl := eq_append_of_follow hplain hlast
  rw [String.ofList_toList] at hl
  refine ⟨outer, ?_, hl⟩
  unfold Path.WayInto at hway
  unfold locateFolder
  split at hway
  · next hempty =>
      subst hempty hway
      have hstart : s.start (Path.join "" name) = s.here := by
        simp [start, Path.join, Path.isAbsolute_of_not_mem hslash]
      rw [if_pos rfl, ← hstart]
      exact houter
  · next hne =>
      obtain ⟨rest, hjoin⟩ := exists_join_eq_append hne hslash
      rw [hjoin] at husable houter
      rw [start_append hne] at houter
      rw [if_neg hne, locate_eq_some_iff]
      refine ⟨isUsable_of_append hne husable, ?_⟩
      rcases hway with hpieces | hpieces
      · rw [hpieces]
        exact houter
      · -- The empty part after a last slash stays where it is.
        have hidle : s.follow outer [] = some outer :=
          follow_eq_some_iff.mpr ⟨isFolder_of_follow hlast, .inl ⟨rfl, rfl⟩⟩
        rw [hpieces, List.foldlM_append, houter]
        simpa using hidle

end Folder

end Store

/-! ## Headers in a folder -/

/-- Files are kept in a folder: the path of each is that of the folder with a single name after it,
it leads directly into the folder, no file outside has changed, and no two are the same file. -/
structure Contained (folder : String) (s t : Store) (files : List (String × String)) : Prop where
  single : ∀ file ∈ files, Path.IsSingleName file.1
  inside : ∀ file ∈ files, ∃ outer, t.locateFolder folder = some outer ∧
    t.locate (Path.join folder file.1) = some (outer ++ [file.1])
  changed : ∀ l content, t.lookUp? l = some (.file content) →
    s.lookUp? l = some (.file content) ∨
      ∃ outer, t.locateFolder folder = some outer ∧ ∃ file ∈ files, l = outer ++ [file.1]
  distinct : (files.map fun file => t.locate (Path.join folder file.1)).Nodup

/-- Files whose names are single and distinct are kept in the folder in which they are saved. -/
theorem contained_of_savingFiles {folder : String} {files : List (String × String)}
    (hfiles : Separate files) {report final : SaveReport} {s t : Store}
    (h : savingFiles folder report files s = (.ok final, t)) : Contained folder s t files := by
  obtain ⟨locations, _, _, hall, -⟩ := savedAll_of_saveFiles hfiles h
  have hlocated : ∀ file ∈ files, ∃ outer, t.locateFolder folder = some outer ∧
      t.locate (Path.join folder file.1) = some (outer ++ [file.1]) := by
    intro file hfile
    obtain ⟨hslash, hplain⟩ := hfiles.plain file hfile
    obtain ⟨l, hl, -⟩ := read_eq_some_iff.mp (hall.held.read hfile)
    obtain ⟨outer, houter, rfl⟩ := exists_locateFolder hslash hplain hl
    exact ⟨outer, houter, hl⟩
  constructor
  case single =>
    intro file hfile
    obtain ⟨hslash, hplain⟩ := hfiles.plain file hfile
    exact ⟨_, Text.splitAtChar_of_not_mem hslash, hplain⟩
  case inside => exact hlocated
  case changed =>
    intro l content hcontent
    by_cases hl : l ∈ locations
    · obtain ⟨file, hfile, hlocate, -⟩ := exists_left_of_mem hall.held hl
      obtain ⟨outer, houter, hlocate'⟩ := hlocated file hfile
      rw [hlocate, Option.some.injEq] at hlocate'
      exact .inr ⟨outer, houter, file, hfile, hlocate'⟩
    · exact .inl ((hall.grown.lookUp?_file_iff hl).mp hcontent)
  case distinct =>
    refine hfiles.nodup.of_map.map_on ?_
    intro file hfile other hother heq
    obtain ⟨outer, -, hlocate⟩ := hlocated file hfile
    obtain ⟨outer', -, hlocate'⟩ := hlocated other hother
    rw [hlocate, hlocate', Option.some.injEq] at heq
    obtain ⟨-, hname⟩ := List.append_inj' heq rfl
    exact List.inj_on_of_nodup_map hfiles.nodup hfile hother (List.singleton_inj.mp hname)

namespace Model

variable {model : Model} {serviceUrl : String}

/-- The paths of all headers consist of single names exactly if no name holds a slash. -/
theorem isSingleName_files_iff {fs : List (String × String)}
    (hfs : model.files (standardSetting serviceUrl) = .ok fs) :
    (∀ file ∈ fs, Path.IsSingleName file.1) ↔ model.Slashless := by
  obtain ⟨ds, hds, hnames⟩ := map_fst_files hfs
  obtain ⟨hbind, -⟩ := descriptors_eq_ok_iff.mp hds
  have hfiles : (∀ file ∈ fs, Path.IsSingleName file.1) ↔
      ∀ d ∈ ds, '/' ∉ (Cpp.naming.descriptorName d).toList := by
    rw [← List.forall_mem_map (f := Prod.fst), hnames, List.forall_mem_map]
    exact forall₂_congr fun d _ => isSingleName_headerFile_iff _
  rw [hfiles]
  constructor
  · rintro h ⟨element, role⟩ hbinding
    obtain ⟨d, hd, rfl, rfl⟩ := (mem_bindings_iff hbind).mp hbinding
    exact h d hd
  · intro h d hd
    exact h (d.element, d.role) ((mem_bindings_iff hbind).mpr ⟨d, hd, rfl, rfl⟩)

/-- The headers of a model are kept in the folder in which they are generated exactly if none of
the names that they are called after holds a slash. -/
theorem contained_iff {folder : String} {s t : Store} {report : SaveReport}
    (h : model.generating (standardSetting serviceUrl) folder s = (.ok report, t)) :
    ∃ fs, model.files (standardSetting serviceUrl) = .ok fs ∧
      (Contained folder s t fs ↔
        ∀ binding ∈ model.bindings, ∀ name ∈ binding.1.names, '/' ∉ name.toList) := by
  obtain ⟨fs, hfs, hsaving⟩ := generating_eq_ok_iff.mp h
  refine ⟨fs, hfs, ?_⟩
  have hcontained : Contained folder s t fs ↔ model.Slashless :=
    ⟨fun h => (isSingleName_files_iff hfs).mp h.single,
      fun h => contained_of_savingFiles (h.separate hfs) hsaving⟩
  rw [hcontained]
  refine forall₂_congr fun binding _ => ?_
  simp [Cpp.slash_mem_roleName_iff]

end Model

/-! ## Headers outside their folder -/

/-- The headers of the palette are kept in the working folder, since its names hold no slash. -/
theorem paletteModel_contained :
    ∃ s t report, savingPalette "" s = (.ok report, t) ∧
      ∃ fs, paletteModel.files (Model.standardSetting Model.defaultServiceUrl) = .ok fs ∧
        (Contained "" s t fs ↔
          ∀ binding ∈ paletteModel.bindings, ∀ name ∈ binding.1.names, '/' ∉ name.toList) ∧
        Contained "" s t fs := by
  obtain ⟨fs, hfs, hiff⟩ := Model.contained_iff savingPalette_binary
  exact ⟨_, _, _, savingPalette_binary, fs, hfs, hiff, hiff.mpr (by decide)⟩

/-- A document about two enumerations whose names lead upward. -/
def strayFile : SourceFile where
  name := "model.json"
  text := "[\"demo\", [[\"../up\"], [\".././up\"]]]"

/-- The model of two enumerations whose names lead upward. -/
def strayModel : Model :=
  ((Model.new "demo").addEnum (emptyEnum "../up")).addEnum (emptyEnum ".././up")

/-- The text of a header of a stray enumeration. -/
def strayText (name : String) : String :=
  ((emptyEnum name).dataEntity .standard).fileText .standard strayModel.headerSpace

/-- The headers of the stray enumerations. -/
def strayFiles : List (String × String) :=
  [("../up.h", strayText "../up"), (".././up.h", strayText ".././up")]

theorem strayModel_files :
    strayModel.files (Model.standardSetting Model.defaultServiceUrl) = .ok strayFiles :=
  rfl

/-- A working folder that holds an empty folder and perhaps a file. -/
def strayStore (up : List Content) : Store where
  here := ["work"]
  entries := [(["work"], .folder), (["work", "out"], .folder)] ++
    up.map fun content => (["work", "up.h"], .file content)

/-- Headers whose names lead upward are saved beside the folder, one in place of the other. -/
theorem savingFiles_stray (first second : String) :
    ∃ report, savingFiles "out" .empty [("../up.h", first), (".././up.h", second)]
      (strayStore []) = (.ok report, strayStore [.text second]) := by
  have hfirst : (strayStore []).read (Path.join "out" "../up.h") = none := rfl
  have hready : (strayStore []).readied (Path.join "out" "../up.h") = (true, strayStore []) := rfl
  have hwrite : (strayStore []).write (Path.join "out" "../up.h") (.text first) =
      (true, strayStore [.text first]) := rfl
  have hsecond : (strayStore [.text first]).read (Path.join "out" ".././up.h") =
      some first := rfl
  have hready' : (strayStore [.text first]).readied (Path.join "out" ".././up.h") =
      (true, strayStore [.text first]) := rfl
  have hwrite' : (strayStore [.text first]).write (Path.join "out" ".././up.h") (.text second) =
      (true, strayStore [.text second]) := rfl
  rw [savingFiles_cons, savingFile_eq, hfirst, if_neg nofun, writeInFolder_eq, hready]
  simp only [hwrite]
  rw [savingFiles_cons, savingFile_eq, hsecond]
  -- Were the texts the same, the second header would be found where the first one is.
  by_cases heq : first = second
  · subst heq
    rw [if_pos rfl]
    exact ⟨_, rfl⟩
  · rw [if_neg (mt Option.some.inj heq), writeInFolder_eq, hready']
    simp only [hwrite']
    exact ⟨_, rfl⟩

theorem locate_stray (text : String) {name : String} (h : name ∈ ["../up.h", ".././up.h"]) :
    (strayStore [.text text]).locate (Path.join "out" name) = some ["work", "up.h"] := by
  simp only [List.mem_cons, List.not_mem_nil, or_false] at h
  rcases h with rfl | rfl <;> rfl

/-- A loaded model can have its headers saved outside the folder, and two of them in the same
file. -/
theorem strayModel_not_contained :
    strayFile.load .json = .ok strayModel ∧ ∃ s t report text,
      strayModel.generating (Model.standardSetting Model.defaultServiceUrl) "out" s =
        (.ok report, t) ∧
      strayModel.files (Model.standardSetting Model.defaultServiceUrl) = .ok strayFiles ∧
      t.locateFolder "out" = some ["work", "out"] ∧
      (∀ file ∈ strayFiles, t.locate (Path.join "out" file.1) = some ["work", "up.h"]) ∧
      s.lookUp? ["work", "up.h"] = none ∧
      t.lookUp? ["work", "up.h"] = some (.file (.text text)) ∧
      ¬ Contained "out" s t strayFiles := by
  obtain ⟨report, hsaving⟩ := savingFiles_stray (strayText "../up") (strayText ".././up")
  have hnames : strayFiles.map Prod.fst = ["../up.h", ".././up.h"] := rfl
  refine ⟨by decide +kernel, _, _, report, _,
    Model.generating_eq_ok_iff.mpr ⟨_, strayModel_files, hsaving⟩, strayModel_files, rfl, ?_, rfl,
    rfl, ?_⟩
  · intro file hfile
    exact locate_stray _ (hnames ▸ List.mem_map_of_mem hfile)
  · intro hcontained
    have hslash := (isSingleName_headerFile_iff "../up").mp
      (hcontained.single ("../up.h", strayText "../up") List.mem_cons_self)
    exact hslash (by decide)

end SdkHeaders
