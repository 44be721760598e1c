import SdkHeaders.Proofs.Generation
import SdkHeaders.Proofs.HeaderText
import SdkHeaders.Proofs.LoadedModel
import SdkHeaders.Proofs.ReservedWords

/-!
# Names of data members

What the data members of a class are called in its header.  The properties of a class have distinct
names, but a reserved word is respelled, and a class without base has two more data members.

Main results:

- Theorem `ClassDecl.fieldNames_dataEntity` lists the names of the data members of a class.
- Definition `ClassDecl.FieldsApart` says that no property is called like another data member, and
  by theorem `SourceFile.fieldNames_nodup_iff_of_load` the data members of a class of a loaded model
  have distinct names exactly if this holds.
- Theorem `settingsModel_repeats`: there are loaded models in which it does not.
-/

namespace SdkHeaders

open Header Text

/-! ## Declared data members -/

/-- The names of the data members of a declaration. -/
def Header.Declaration.fieldNames (d : Declaration) : List String :=
  d.fields.map Prod.snd

/-- The names of the data members of a class without base besides its properties. -/
def rootNames : List String :=
  ["odata", "additionalData"]

/-- The data members of a class are those of its properties, in order, and the additional ones if
it has no base. -/
theorem ClassDecl.fieldNames_dataEntity (target : Target) (c : ClassDecl) :
    (c.dataEntity target).declaration.fieldNames =
      c.properties.map (fun p => target.naming.memberName p.name) ++
        if c.base.isSome then [] else rootNames := by
  have hproperties : ∀ ps : List Property,
      ((ps.map (·.member target)).flatMap Member.fieldList).map Prod.snd =
        ps.map fun p => target.naming.memberName p.name := by
    intro ps
    induction ps with
    | nil => rfl
    | cons p rest ih => exact congrArg (target.naming.memberName p.name :: ·) ih
  change ((memberFields target c).flatMap Member.fieldList).map Prod.snd = _
  rw [memberFields, List.flatMap_append, List.map_append, hproperties]
  by_cases hbase : c.base.isSome
  · rw [if_pos hbase, if_pos hbase]
    rfl
  · rw [if_neg hbase, if_neg hbase]
    rfl

/-! ## Distinct names -/

/-- No property of a class is called like another data member. -/
structure ClassDecl.FieldsApart (c : ClassDecl) : Prop where
  /-- No property is called as what another one, a reserved word, is respelled. -/
  respelled : ∀ p ∈ c.properties, p.name ∈ Cpp.keywords →
    ∀ q ∈ c.properties, q.name ≠ p.name ++ "_"
  /-- In a class without base, no property is called like an additional data member. -/
  additional : c.base = none → ∀ p ∈ c.properties, p.name ∉ rootNames

/-- Exactly a property of the name of an additional data member is spelled like it. -/
theorem Cpp.memberName_mem_rootNames_iff {name : String} :
    naming.memberName name ∈ rootNames ↔ name ∈ rootNames := by
  have hplain : ∀ root ∈ rootNames, root ∉ keywords ∧ root.toList.getLast? ≠ some '_' := by
    decide +kernel
  have hroot : ∀ root ∈ rootNames, (naming.memberName name = root ↔ name = root) := by
    intro root hmem
    obtain ⟨hreserved, hlast⟩ := hplain root hmem
    have hself : naming.memberName root = root := safeName_of_not_mem hreserved
    rw [← hself, memberName_eq_iff, hself, or_iff_left_iff_imp]
    rintro (⟨-, heq⟩ | ⟨hmem, -⟩)
    · exact absurd (by simp [heq]) hlast
    · exact absurd hmem hreserved
  constructor
  · intro h
    rwa [← (hroot _ h).mp rfl] at h
  · intro h
    rwa [(hroot name h).mpr rfl]

/-- The member names of properties with distinct names are distinct exactly if none is called as
what another one is respelled. -/
theorem nodup_memberNames_iff {ps : List Property} (hnodup : (ps.map Property.name).Nodup) :
    (ps.map fun p => Cpp.naming.memberName p.name).Nodup ↔
      ∀ p ∈ ps, p.name ∈ Cpp.keywords → ∀ q ∈ ps, q.name ≠ p.name ++ "_" := by
  rw [List.nodup_map_iff_inj_on hnodup.of_map]
  constructor
  · intro hinj p hp hreserved q hq hname
    have heq : p = q := hinj p hp q hq (Cpp.memberName_eq_iff.mpr (.inr (.inl ⟨hreserved, hname⟩)))
    rw [← heq] at hname
    apply Cpp.append_underscore_not_mem_keywords p.name
    rwa [← hname]
  · intro happart p hp q hq hname
    rcases Cpp.memberName_eq_iff.mp hname with heq | ⟨hreserved, heq⟩ | ⟨hreserved, heq⟩
    · exact List.inj_on_of_nodup_map hnodup hp hq heq
    · exact absurd heq (happart p hp hreserved q hq)
    · exact absurd heq (happart q hq hreserved p hp)

theorem disjoint_rootNames_iff {ps : List Property} :
    (ps.map fun p => Cpp.naming.memberName p.name).Disjoint rootNames ↔
      ∀ p ∈ ps, p.name ∉ rootNames := by
  rw [List.disjoint_left, List.forall_mem_map]
  simp only [Cpp.memberName_mem_rootNames_iff]

/-- The data members of a class whose properties have distinct names have distinct names exactly if
no property is called like another data member. -/
theorem ClassDecl.fieldNames_nodup_iff {c : ClassDecl}
    (hnodup : (c.properties.map Property.name).Nodup) :
    (c.dataEntity .standard).declaration.fieldNames.Nodup ↔ c.FieldsApart := by
  have hroots : rootNames.Nodup := by decide
  rw [fieldNames_dataEntity]
  change (c.properties.map (fun p => Cpp.naming.memberName p.name) ++ _).Nodup ↔ _
  cases hbase : c.base with
  | some base =>
      rw [Option.isSome_some, if_pos rfl, List.append_nil, nodup_memberNames_iff hnodup]
      exact ⟨fun h => ⟨h, by simp [hbase]⟩, FieldsApart.respelled⟩
  | none =>
      rw [Option.isSome_none, if_neg Bool.false_ne_true, List.nodup_append',
        nodup_memberNames_iff hnodup, disjoint_rootNames_iff]
      constructor
      · rintro ⟨hrespelled, -, hadditional⟩
        exact ⟨hrespelled, fun _ => hadditional⟩
      · intro h
        exact ⟨h.respelled, hroots, h.additional hbase⟩

/-- The header of a class of a loaded model declares a data member for each property, and the
additional ones if the class has no base.  These have distinct names exactly if no property is
called like another data member. -/
theorem SourceFile.fieldNames_nodup_iff_of_load {file : SourceFile} {format : Format}
    {model : Model} (hload : file.load format = .ok model) {serviceUrl : String} {c : ClassDecl}
    {entity : Entity}
    (hrenders : model.Renders (Model.standardSetting serviceUrl) (.ofClass c) .dataType entity) :
    entity.declaration.fieldNames =
        c.properties.map (fun p => Cpp.naming.memberName p.name) ++
          (if c.base.isSome then [] else rootNames) ∧
      (∀ m ∈ entity.declaration.members,
        Layout.memberLines Target.standard.indent m.layout <:+:
          lines (entity.fileText .standard model.headerSpace)) ∧
      (entity.declaration.fieldNames.Nodup ↔ c.FieldsApart) := by
  have hclass : c ∈ model.classes := (Model.mem_bindings_ofClass.mp hrenders.mem_bindings).1
  obtain ⟨names, hrendered⟩ := hrenders.exists_rendered
  cases hrendered with
  | facet hcontract => cases hcontract
  | classData =>
      refine ⟨c.fieldNames_dataEntity .standard, ?_, ?_⟩
      · intro m hm
        exact Entity.memberLines_infix_fileText (by decide) hm model.headerSpace
      · exact ClassDecl.fieldNames_nodup_iff (properties_nodup_of_load hload hclass)

/-- A document about a class with a property that is called as what another one is respelled, and
a derived class. -/
def settingsFile : SourceFile where
  name := "model.json"
  text := "[\"demo\", [], [[\"settings\", \"complex\", null, [[\"default\", \"Boolean\"], " ++
    "[\"default_\", \"Boolean\"], [\"odata\", \"String\"]]], " ++
    "[\"theme\", \"complex\", \"settings\", [[\"class\", \"String\"], [\"odata\", \"String\"]]]]]"

/-- A single-valued property of a class that holds data. -/
def dataProperty (owner name type : String) : Property where
  name := name
  owner := owner
  type := type
  collection := false
  navigation := false
  description := none

/-- The class of settings. -/
def settingsClass : ClassDecl where
  name := "settings"
  kind := .complex
  base := none
  properties :=
    [dataProperty "settings" "default" "Boolean", dataProperty "settings" "default_" "Boolean",
      dataProperty "settings" "odata" "String"]

/-- The class of themes, which are settings. -/
def themeClass : ClassDecl where
  name := "theme"
  kind := .complex
  base := some "settings"
  properties := [dataProperty "theme" "class" "String", dataProperty "theme" "odata" "String"]

/-- The model of settings and themes. -/
def settingsModel : Model :=
  ((Model.new "demo").addClass settingsClass).addClass themeClass

theorem load_settingsFile : settingsFile.load .json = .ok settingsModel := by
  decide +kernel

/-- The class of themes calls no data member twice, although its base has the additional data
members as well. -/
theorem settingsModel_theme_fieldNames :
    settingsFile.load .json = .ok settingsModel ∧ themeClass.FieldsApart ∧ ∃ entity,
      settingsModel.Renders (Model.standardSetting Model.defaultServiceUrl) (.ofClass themeClass)
          .dataType entity ∧
        entity.declaration.fieldNames = ["class_", "odata"] ∧
          entity.declaration.fieldNames.Nodup := by
  have hmem : themeClass ∈ settingsModel.classes := List.mem_cons_of_mem _ List.mem_cons_self
  have happart : themeClass.FieldsApart := by
    constructor
    · decide
    · intro hbase
      cases hbase
  have hrenders := settingsModel.renders_classData
    (Model.standardSetting Model.defaultServiceUrl) hmem (by decide)
  obtain ⟨hnames, -, hnodup⟩ := SourceFile.fieldNames_nodup_iff_of_load load_settingsFile hrenders
  refine ⟨load_settingsFile, happart, _, hrenders, ?_, hnodup.mpr happart⟩
  rw [hnames]
  decide

/-- The class of settings declares two data members twice. -/
theorem settingsModel_repeats :
    settingsFile.load .json = .ok settingsModel ∧ ∃ entity,
      settingsModel.Renders (Model.standardSetting Model.defaultServiceUrl) (.ofClass settingsClass)
          .dataType entity ∧
        entity.declaration.fieldNames =
            ["default_", "default_", "odata", "odata", "additionalData"] ∧
          ¬ entity.declaration.fieldNames.Nodup := by
  have hmem : settingsClass ∈ settingsModel.classes := List.mem_cons_self
  refine ⟨load_settingsFile, settingsClass.dataEntity .standard, ?_, ?_, ?_⟩
  · exact settingsModel.renders_classData _ hmem (by decide)
  · decide
  · decide

end SdkHeaders
