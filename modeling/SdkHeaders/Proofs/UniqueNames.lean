import Mathlib.Data.List.Nodup
import SdkHeaders.Proofs.Generation

/-!
# Unique names

When the names of descriptors can stand side by side, and what is reported if they cannot.

Main results:

- Definition `NamesFree` says that names are distinct and none is a framework name.
- Relation `ClaimedBy` says what has taken a name before.
- Theorem `Model.eq_of_roleName_eq`: different declarations of a model have different names.
- Theorem `checkUnique_spec`: the check passes exactly for free names and reports the first
  clash otherwise, and the headers of a model have distinct file names.
-/

namespace SdkHeaders

/-! ## Free and claimed names -/

/-- The names of the descriptors are distinct, and none is a name of the framework. -/
def NamesFree (naming : Naming) (framework : List String) (ds : List Descriptor) : Prop :=
  (ds.map naming.descriptorName).Nodup ∧ ∀ d ∈ ds, naming.descriptorName d ∉ framework

/-- What has claimed a name: a type of the framework, or the only one of the descriptors
that is called so. -/
inductive ClaimedBy (naming : Naming) (framework : List String) (ds : List Descriptor)
    (name : String) : Claimant → Prop
  /-- The framework has a type of this name, and no descriptor has it. -/
  | framework (h : name ∈ framework) (hnone : ∀ d ∈ ds, naming.descriptorName d ≠ name) :
      ClaimedBy naming framework ds name (.framework name)
  /-- Exactly one descriptor has this name, and the framework has no such type. -/
  | descriptor {d : Descriptor} (h : name ∉ framework)
      (hone : ds.filter (fun other => naming.descriptorName other = name) = [d]) :
      ClaimedBy naming framework ds name (.descriptor d)

/-- How a claimant is called in messages: a type of the framework by its name, and a declaration by
its role and its element. -/
inductive Claimant.CalledAs : Claimant → String → Prop
  | framework (name : String) : CalledAs (.framework name) ("framework type '" ++ name ++ "'")
  | descriptor (d : Descriptor) :
      CalledAs (.descriptor d) (d.role.text ++ " of " ++ d.element.describe)

theorem Claimant.calledAs_describe (claimant : Claimant) : claimant.CalledAs claimant.describe := by
  cases claimant with
  | framework name => exact .framework name
  | descriptor d => exact .descriptor d

variable {naming : Naming} {framework : List String}

/-- No descriptors have free names. -/
theorem namesFree_nil : NamesFree naming framework [] := by
  simp [NamesFree]

/-- The names stay free with a further name that is neither a framework name nor in use. -/
theorem NamesFree.concat {ds : List Descriptor} {d : Descriptor}
    (h : NamesFree naming framework ds) (hframework : naming.descriptorName d ∉ framework)
    (hnew : naming.descriptorName d ∉ ds.map naming.descriptorName) :
    NamesFree naming framework (ds ++ [d]) := by
  constructor
  · rw [List.map_append, List.map_singleton]
    exact List.nodup_append_comm.mpr (List.nodup_cons.mpr ⟨hnew, h.1⟩)
  · intro other hother
    rcases List.mem_append.mp hother with hother | hother
    · exact h.2 other hother
    · rw [List.mem_singleton.mp hother]
      exact hframework

/-- Among elements with distinct keys, an element is the only one with its key. -/
theorem filter_key_eq_singleton {α : Type} {key : α → String} {l : List α}
    (hnodup : (l.map key).Nodup) {a : α} (ha : a ∈ l) :
    l.filter (fun b => key b = key a) = [a] := by
  induction l with
  | nil => cases ha
  | cons first rest ih =>
      obtain ⟨hfirst, hrest⟩ := List.nodup_cons.mp hnodup
      rcases List.mem_cons.mp ha with rfl | ha
      · have hnone : rest.filter (fun b => key b = key a) = [] := by
          rw [List.filter_eq_nil_iff]
          intro b hb heq
          exact hfirst (List.mem_map.mpr ⟨b, hb, by simpa using heq⟩)
        simp [hnone]
      · have hne : key first ≠ key a := fun heq =>
          hfirst (List.mem_map.mpr ⟨a, ha, heq.symm⟩)
        rw [List.filter_cons_of_neg (by simpa using hne), ih hrest ha]

/-! ## The names claimed so far -/

/-- The names claimed by the framework and by some descriptors, latest first. -/
def claims (naming : Naming) (framework : List String) (ds : List Descriptor) :
    List (String × Claimant) :=
  (ds.reverse.map fun d => (naming.descriptorName d, .descriptor d)) ++
    framework.map fun name => (name, .framework name)

/-- A further descriptor claims its name. -/
theorem claims_concat (ds : List Descriptor) (d : Descriptor) :
    claims naming framework (ds ++ [d]) =
      (naming.descriptorName d, .descriptor d) :: claims naming framework ds := by
  simp [claims]

/-- Exactly the names of the framework and of the descriptors are claimed. -/
theorem mem_claims_iff {ds : List Descriptor} {name : String} {claimant : Claimant} :
    (name, claimant) ∈ claims naming framework ds ↔
      (∃ d ∈ ds, naming.descriptorName d = name ∧ claimant = .descriptor d) ∨
        (name ∈ framework ∧ claimant = .framework name) := by
  simp only [claims, List.mem_append, List.mem_map, List.mem_reverse, Prod.mk.injEq]
  constructor
  · rintro (⟨d, hd, hname, heq⟩ | ⟨other, hother, rfl, heq⟩)
    · exact Or.inl ⟨d, hd, hname, heq.symm⟩
    · exact Or.inr ⟨hother, heq.symm⟩
  · rintro (⟨d, hd, hname, heq⟩ | ⟨hmem, heq⟩)
    · exact Or.inl ⟨d, hd, hname, heq.symm⟩
    · exact Or.inr ⟨name, hmem, rfl, heq.symm⟩

/-- If the names are free, what is looked up under a name is what has claimed it. -/
theorem claimedBy_of_lookup {ds : List Descriptor} (hfree : NamesFree naming framework ds)
    {name : String} {first : Claimant}
    (h : (claims naming framework ds).lookup name = some first) :
    ClaimedBy naming framework ds name first := by
  obtain ⟨l₁, l₂, heq, -⟩ := List.lookup_eq_some_iff.mp h
  have hmem : (name, first) ∈ claims naming framework ds := by
    rw [heq]
    exact List.mem_append_right l₁ List.mem_cons_self
  rcases mem_claims_iff.mp hmem with ⟨d, hd, rfl, rfl⟩ | ⟨hname, rfl⟩
  · exact .descriptor (hfree.2 d hd) (filter_key_eq_singleton hfree.1 hd)
  · exact .framework hname fun d hd heq => hfree.2 d hd (heq ▸ hname)

/-- If nothing is looked up under the name of a descriptor, its name is free as well. -/
theorem namesFree_concat_of_lookup {ds : List Descriptor} {d : Descriptor}
    (hfree : NamesFree naming framework ds)
    (h : (claims naming framework ds).lookup (naming.descriptorName d) = none) :
    NamesFree naming framework (ds ++ [d]) := by
  have hnot : ∀ claimant, (naming.descriptorName d, claimant) ∉ claims naming framework ds := by
    intro claimant hmem
    have := List.lookup_eq_none_iff.mp h _ hmem
    simp at this
  refine hfree.concat ?_ ?_
  · exact fun hmem => hnot _ (mem_claims_iff.mpr (Or.inr ⟨hmem, rfl⟩))
  · intro hmem
    obtain ⟨other, hother, heq⟩ := List.mem_map.mp hmem
    exact hnot _ (mem_claims_iff.mpr (Or.inl ⟨other, hother, heq, rfl⟩))

/-! ## The check -/

/-- The check passes exactly if the names are free. -/
theorem checkUnique_eq_ok_iff (ds : List Descriptor) :
    checkUnique naming framework ds = .ok () ↔ NamesFree naming framework ds := by
  unfold checkUnique NamesFree
  rw [claimNames_eq_ok_iff, List.map_map]
  simp only [Function.comp_def, List.map_id']

/-- A failure after descriptors with free names tells of the first further descriptor whose
name is claimed, and of what has claimed it. -/
theorem exists_clash_of_claimNames {before : List Descriptor}
    (hfree : NamesFree naming framework before) {rest : List Descriptor}
    {error : DerivationError}
    (h : claimNames naming.descriptorName (claims naming framework before) rest = .error error) :
    ∃ passed second after first, rest = passed ++ second :: after ∧
      NamesFree naming framework (before ++ passed) ∧
        ClaimedBy naming framework (before ++ passed) (naming.descriptorName second) first ∧
          error = .duplicateName (naming.descriptorName second) first second := by
  induction rest generalizing before with
  | nil => cases h
  | cons d rest ih =>
      unfold claimNames at h
      cases hlookup : (claims naming framework before).lookup (naming.descriptorName d) with
      | some first =>
          rw [hlookup] at h
          cases h
          refine ⟨[], d, rest, first, rfl, ?_⟩
          rw [List.append_nil]
          exact ⟨hfree, claimedBy_of_lookup hfree hlookup, rfl⟩
      | none =>
          rw [hlookup, ← claims_concat] at h
          obtain ⟨passed, second, after, first, rfl, hpassed, hclaimed, herror⟩ :=
            ih (namesFree_concat_of_lookup hfree hlookup) h
          rw [List.append_assoc] at hpassed hclaimed
          exact ⟨d :: passed, second, after, first, rfl, hpassed, hclaimed, herror⟩

/-- A failure of the check tells of the first descriptor whose name is claimed, and of what
has claimed it. -/
theorem exists_clash_of_checkUnique {ds : List Descriptor} {error : DerivationError}
    (h : checkUnique naming framework ds = .error error) :
    ∃ before second after first called, ds = before ++ second :: after ∧
      NamesFree naming framework before ∧
        ClaimedBy naming framework before (naming.descriptorName second) first ∧
          error = .duplicateName (naming.descriptorName second) first second ∧
            first.CalledAs called ∧
              error.message = "two types are both named '" ++ naming.descriptorName second ++
                "' (" ++ called ++ " and " ++
                  (second.role.text ++ " of " ++ second.element.describe) ++ ")" := by
  obtain ⟨before, second, after, first, hsplit, hfree, hclaimed, rfl⟩ :=
    exists_clash_of_claimNames namesFree_nil h
  exact ⟨before, second, after, first, _, hsplit, hfree, hclaimed, rfl, first.calledAs_describe,
    rfl⟩

/-- Different declarations of a model with descriptors have different names. -/
theorem Model.eq_of_roleName_eq {model : Model} {setting : Header.Setting} {ds : List Descriptor}
    (hds : model.descriptors setting = .ok ds) {a b : Element × Role} (ha : a ∈ model.bindings)
    (hb : b ∈ model.bindings)
    (h : setting.target.naming.roleName a.1 a.2 = setting.target.naming.roleName b.1 b.2) :
    a = b := by
  obtain ⟨hbind, hunique⟩ := descriptors_eq_ok_iff.mp hds
  have hnodup := ((checkUnique_eq_ok_iff ds).mp hunique).1
  obtain ⟨d, hd, hda, hdr⟩ := (mem_bindings_iff hbind).mp ha
  obtain ⟨d', hd', hda', hdr'⟩ := (mem_bindings_iff hbind).mp hb
  have hnames : setting.target.naming.descriptorName d =
      setting.target.naming.descriptorName d' := by
    rw [Naming.descriptorName, Naming.descriptorName, hda, hdr, hda', hdr']
    exact h
  obtain rfl := List.inj_on_of_nodup_map hnodup hd hd' hnames
  exact Prod.ext (hda.symm.trans hda') (hdr.symm.trans hdr')

/-! ## File names -/

/-- Different names have different header files. -/
theorem headerFile_injective (target : Target) : Function.Injective target.headerFile := by
  intro a b h
  have h' : (a ++ "." ++ target.headerExtension).toList =
      (b ++ "." ++ target.headerExtension).toList := congrArg String.toList h
  simp only [String.toList_append, List.append_assoc] at h'
  exact String.toList_inj.mp (List.append_cancel_right h')

/-- The file names of a model are the header files of its descriptors' names, in order. -/
theorem Model.map_fst_files {model : Model} {setting : Header.Setting}
    {fs : List (String × String)} (h : model.files setting = .ok fs) :
    ∃ ds, model.descriptors setting = .ok ds ∧
      fs.map Prod.fst = ds.map fun d =>
        setting.target.headerFile (setting.target.naming.descriptorName d) := by
  obtain ⟨es, hes, rfl⟩ := files_eq_ok_iff.mp h
  obtain ⟨ds, hds, hrender⟩ := entities_eq_ok_iff.mp hes
  refine ⟨ds, hds, ?_⟩
  have hnames := congrArg (List.map setting.target.headerFile) (map_name_entities hrender)
  simpa [List.map_map, Function.comp_def] using hnames

/-- The check of names passes exactly for free names.  It fails at the first descriptor whose
name is claimed and reports it after what has claimed the name; the message calls both by their
roles and elements, or by the name of the framework type.  So the files of a model have distinct names,
none of them that of a framework header, and each descriptor has its own, in order. -/
theorem checkUnique_spec (naming : Naming) (framework : List String) (ds : List Descriptor)
    (model : Model) (setting : Header.Setting) :
    (checkUnique naming framework ds = .ok () ↔ NamesFree naming framework ds) ∧
      (∀ error, checkUnique naming framework ds = .error error →
        ∃ before second after first called, ds = before ++ second :: after ∧
          NamesFree naming framework before ∧
            ClaimedBy naming framework before (naming.descriptorName second) first ∧
              error = .duplicateName (naming.descriptorName second) first second ∧
                first.CalledAs called ∧
                  error.message = "two types are both named '" ++ naming.descriptorName second ++
                    "' (" ++ called ++ " and " ++
                      (second.role.text ++ " of " ++ second.element.describe) ++ ")") ∧
      ∀ fs, model.files setting = .ok fs →
        (fs.map Prod.fst).Nodup ∧
          (∀ name ∈ setting.target.frameworkTypes,
            setting.target.headerFile name ∉ fs.map Prod.fst) ∧
          ∃ bound, model.bind = .ok bound ∧ fs.map Prod.fst = bound.map fun d =>
            setting.target.headerFile (setting.target.naming.descriptorName d) := by
  refine ⟨checkUnique_eq_ok_iff ds, fun error => exists_clash_of_checkUnique, ?_⟩
  intro fs hfs
  obtain ⟨bound, hbound, hfiles⟩ := Model.map_fst_files hfs
  obtain ⟨hbind, hunique⟩ := Model.descriptors_eq_ok_iff.mp hbound
  have hfree := (checkUnique_eq_ok_iff bound).mp hunique
  have hinjective := headerFile_injective setting.target
  refine ⟨?_, ?_, bound, hbind, hfiles⟩
  · rw [hfiles, ← Function.comp_def, ← List.map_map]
    exact List.Nodup.map hinjective hfree.1
  · intro name hname hmem
    rw [hfiles] at hmem
    obtain ⟨d, hd, heq⟩ := List.mem_map.mp hmem
    exact hfree.2 d hd (hinjective heq ▸ hname)

/-- An enumeration without members. -/
def emptyEnum (name : String) : EnumDecl :=
  ⟨name, false, []⟩

/-- The data type of an enumeration without members. -/
def emptyEnumData (name : String) : Descriptor :=
  ⟨.ofEnum (emptyEnum name), .dataType, rfl⟩

/-- Two enumerations whose names differ in their first letter clash, and one of them alone has
a file of its own. -/
theorem checkUnique_color :
    (∃ before second after first,
      [emptyEnumData "color", emptyEnumData "Color"] = before ++ second :: after ∧
        NamesFree Cpp.naming Cpp.frameworkTypes before ∧
          ClaimedBy Cpp.naming Cpp.frameworkTypes before (Cpp.naming.descriptorName second)
            first) ∧
      ∃ fs, ((Model.new "demo").addEnum (emptyEnum "color")).files
        (Model.standardSetting Model.defaultServiceUrl) = .ok fs ∧ (fs.map Prod.fst).Nodup := by
  obtain ⟨-, hclash, hfiles⟩ := checkUnique_spec Cpp.naming Cpp.frameworkTypes
    [emptyEnumData "color", emptyEnumData "Color"]
    ((Model.new "demo").addEnum (emptyEnum "color"))
    (Model.standardSetting Model.defaultServiceUrl)
  obtain ⟨before, second, after, first, -, hsplit, hfree, hclaimed, -⟩ :=
    hclash (.duplicateName "Color" (.descriptor (emptyEnumData "color")) (emptyEnumData "Color"))
      (by decide +kernel)
  exact ⟨⟨before, second, after, first, hsplit, hfree, hclaimed⟩, _, rfl, (hfiles _ rfl).1⟩

end SdkHeaders
