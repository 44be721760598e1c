import SdkHeaders.Proofs.Identifiers
import SdkHeaders.Proofs.LoadedModel
import SdkHeaders.Proofs.Mentions
import SdkHeaders.Proofs.References

/-!
# Self-contained headers

A header declares or includes everything that its declaration mentions, so that it can be
read without another header before it.  A type name from the model counts as one name, and as long
as the names of the model hold no signs, no other name can be read in it.

Main results:

- Definition `Cpp.spelledNames` lists what can be read as a name in a spelling.
- Structure `Entity.SelfContained` says that all mentioned names are the entity's own or
  included, and structure `Entity.IncludesNamed` that all names in their spellings are.
- Theorem `Refers.wellSpelled`: in a model without empty names, all names that a header refers
  to can be included.
- Theorem `Model.entities_selfContained`: the headers of a loaded model are self-contained, and
  theorem `boxModel_not_includesNamed` that they need not include the names in a type with signs.
-/

namespace SdkHeaders

open Header
open Text (FreeOf NoSmallStart)

/-! ## Included names -/

/-- Whether a character of a spelling is not part of a name: a character of ASCII apart from
letters, digits and underscores. -/
def Cpp.endsName (c : Char) : Bool :=
  !c.isAlphanum && c != '_' && c != '\x00' && c.toNat < 128

/-- The signs that end a name. -/
def Cpp.signs : List Char :=
  ((List.range 128).map Char.ofNat).filter endsName

/-- What stands between separators in a spelling. -/
def Cpp.piecesBetween (separator : Char → Bool) (spelling : String) : List String :=
  (spelling.toList.splitOnP separator).map String.ofList

/-- What can be read as a name in a spelling: the spelling itself, the qualified names in it and the
parts of these. -/
def Cpp.spelledNames (spelling : String) : List String :=
  spelling :: (piecesBetween (fun c => endsName c && c != ':') spelling ++
    piecesBetween endsName spelling)

/-- A header includes what its declaration mentions, a type name from the model being one name. -/
structure Entity.SelfContained (target : Target) (e : Entity) : Prop where
  /-- A mentioned type that a header declares is the entity itself or a dependency, whose
  header is included. -/
  user : ∀ x, .user x ∈ e.declaration.mentions → x = e.name ∨
    x ∈ e.dependencies.user.toList ∧ target.headerFile x ∈ (e.includes target).user.toList
  /-- All headers of the names in a mentioned library spelling are included. -/
  system : ∀ s, .system s ∈ e.declaration.mentions → ∀ name ∈ Cpp.spelledNames s,
    ∀ header ∈ target.headersFor name, header ∈ (e.includes target).system.toList

/-- The name is declared by a generated header or by one of the framework. -/
def Model.Knows (target : Target) (model : Model) (name : String) : Prop :=
  model.Declares target.naming name ∨ name ∈ target.frameworkTypes

/-- A header includes all names that can be read in the spellings that its declaration mentions. -/
structure Entity.IncludesNamed (target : Target) (model : Model) (e : Entity) : Prop where
  /-- A generated type or a type of the framework is the entity itself or a dependency, whose
  header is included. -/
  user : ∀ n ∈ e.declaration.mentions, ∀ name ∈ Cpp.spelledNames n.text,
    model.Knows target name → name = e.name ∨
      name ∈ e.dependencies.user.toList ∧
        target.headerFile name ∈ (e.includes target).user.toList
  /-- All headers of a library name are included. -/
  system : ∀ n ∈ e.declaration.mentions, ∀ name ∈ Cpp.spelledNames n.text,
    ∀ header ∈ target.headersFor name, header ∈ (e.includes target).system.toList

/-! ## Spellings of names -/

namespace Cpp

theorem mem_signs_iff {c : Char} : c ∈ signs ↔ endsName c = true := by
  constructor
  · exact fun h => (List.mem_filter.mp h).2
  · intro h
    have hascii : c.toNat < 128 := by
      simp only [endsName, Bool.and_eq_true, decide_eq_true_eq] at h
      exact h.2
    have hmem : c ∈ (List.range 128).map Char.ofNat :=
      List.mem_map.mpr ⟨c.toNat, List.mem_range.mpr hascii, Char.ofNat_toNat c⟩
    exact List.mem_filter.mpr ⟨hmem, h⟩

theorem freeOf_signs_iff {s : String} : FreeOf signs s ↔ s.toList.any endsName = false := by
  rw [List.any_eq_false]
  constructor
  · exact fun h c hc hends => h c (mem_signs_iff.mpr hends) hc
  · exact fun h c hsign hc => h c hc (mem_signs_iff.mp hsign)

/-- A spelling without separators is one piece. -/
theorem piecesBetween_eq_singleton {separator : Char → Bool} {s : String}
    (h : s.toList.any separator = false) : piecesBetween separator s = [s] := by
  have hnone : ∀ c ∈ s.toList, separator c = false := by simpa using h
  rw [piecesBetween, List.splitOnP_eq_singleton hnone, List.map_singleton, String.ofList_toList]

/-- A spelling without signs is one name. -/
theorem eq_of_mem_spelledNames {s name : String} (h : FreeOf signs s)
    (hname : name ∈ spelledNames s) : name = s := by
  have hnone := freeOf_signs_iff.mp h
  have hqualified : s.toList.any (fun c => endsName c && c != ':') = false := by
    rw [List.any_eq_false] at hnone ⊢
    intro c hc
    simp [hnone c hc]
  rw [spelledNames, piecesBetween_eq_singleton hqualified,
    piecesBetween_eq_singleton hnone] at hname
  simpa using hname

/-- The library names with headers are qualified, so that a name without signs is none of them. -/
theorem headersFor_of_freeOf {x : String} (h : FreeOf signs x) :
    Target.standard.headersFor x = [] := by
  have hqualified : ∀ row ∈ systemHeaders, row.1.toList.any endsName = true := by decide +kernel
  rw [Target.headersFor, List.map_eq_nil_iff, List.filter_eq_nil_iff]
  intro row hrow hname
  have hends := hqualified row hrow
  rw [of_decide_eq_true hname, freeOf_signs_iff.mp h] at hends
  cases hends

end Cpp

/-- A type name is not empty.  A library spelling needs all headers of the names in it, and none of
these names is capitalized. -/
def TypeName.WellSpelled (target : Target) : TypeName → Prop
  | .system s => s ≠ "" ∧ ∀ name ∈ Cpp.spelledNames s,
      (∀ header ∈ target.headersFor name, header ∈ target.headersFor s) ∧
        (name = "" ∨ ¬ NoSmallStart name)
  | .user x => x ≠ ""

instance (target : Target) : (n : TypeName) → Decidable (n.WellSpelled target)
  | .system _ => inferInstanceAs (Decidable (_ ∧ _))
  | .user _ => inferInstanceAs (Decidable (_ ≠ _))

/-- The library names with headers and the types of the language are well spelled. -/
theorem Cpp.wellSpelled_spellings :
    ∀ s ∈ systemHeaders.map Prod.fst ++ ["void", "bool", "unsigned char", "double", "float"],
      (TypeName.system s).WellSpelled .standard := by
  decide +kernel

theorem wellSpelled_of_mem_systemHeaders {s : String}
    (h : s ∈ Cpp.systemHeaders.map Prod.fst) : (TypeName.system s).WellSpelled .standard :=
  Cpp.wellSpelled_spellings s (List.mem_append_left _ h)

/-- The spellings of primitive types are well spelled. -/
theorem wellSpelled_of_primitive {type s : String}
    (h : Target.standard.primitive? type = some s) :
    (TypeName.system s).WellSpelled .standard := by
  have hrows : ∀ row ∈ Cpp.primitiveTypes, row.2 ∈ Cpp.systemHeaders.map Prod.fst ++
      ["void", "bool", "unsigned char", "double", "float"] := by
    decide +kernel
  obtain ⟨row, hrow, rfl⟩ := Option.map_eq_some_iff.mp h
  exact Cpp.wellSpelled_spellings row.2 (hrows row (List.mem_of_find?_eq_some hrow))

/-- The spellings of integer types are well spelled. -/
theorem wellSpelled_intType (t : IntType) :
    (TypeName.system t.spelling).WellSpelled .standard := by
  have hall : ∀ signed width, IntType.spelling ⟨signed, width⟩ ∈
      Cpp.systemHeaders.map Prod.fst := by
    intro signed width
    cases signed <;> cases width <;> decide +kernel
  exact wellSpelled_of_mem_systemHeaders (hall t.signed t.width)

/-! ## Names that are not empty -/

namespace Cpp

/-- A name is not made empty by setting it apart from reserved words. -/
theorem safeName_ne_empty {name : String} (h : name ≠ "") : naming.safeName name ≠ "" := by
  unfold Naming.safeName
  split
  · simp [naming]
  · exact h

/-- The type name of a name is not empty. -/
theorem typeName_ne_empty {name : String} (h : name ≠ "") : naming.typeName name ≠ "" :=
  safeName_ne_empty (mt (Text.capitalize_eq_empty_iff name).mp h)

/-- The name of a facet is not empty if the name is not. -/
theorem faceted_ne_empty {name : String} (h : name ≠ "") (f : Facet) :
    Naming.faceted f name ≠ "" := by
  cases f with
  | implementation => exact h
  | interface => simp [Naming.faceted]

/-- The name of a builder is not empty. -/
theorem builderName_ne_empty (f : Facet) (base : String) : naming.builderName f base ≠ "" :=
  safeName_ne_empty (faceted_ne_empty (by simp) f)

/-- The declarations of a model without empty names have names. -/
theorem roleName_ne_empty {model : Model} (hnamed : model.Named) {element : Element}
    {role : Role} (h : (element, role) ∈ model.bindings) :
    naming.roleName element role ≠ "" := by
  have hbase : naming.baseName element ≠ "" := by
    cases element with
    | ofEnum e =>
        have he := hnamed.enums e (Model.mem_bindings_ofEnum.mp h).1
        exact mt (Text.capitalize_eq_empty_iff e.name).mp he
    | ofClass c =>
        have hc := hnamed.classes c (Model.mem_bindings_ofClass.mp h).1
        exact mt (Text.capitalize_eq_empty_iff c.name).mp hc
    | ofProperty c p => simp [Naming.baseName, Naming.collectionName]
  exact safeName_ne_empty (faceted_ne_empty (by simp [hbase]) role.facet)

end Cpp

/-- The names that are declared or belong to the framework are not empty and do not start with a
small letter. -/
theorem Model.Knows.noSmallStart {model : Model} (hnamed : model.Named) {name : String}
    (h : model.Knows .standard name) : name ≠ "" ∧ NoSmallStart name := by
  rcases h with ⟨element, role, hmem, rfl⟩ | hframework
  · refine ⟨Cpp.roleName_ne_empty hnamed hmem, ?_⟩
    have hname := Cpp.roleName_eq element role
    have hstart := (Cpp.noSmallStart_baseName element).append role.noSmallStart_suffix
    exact hname ▸ hstart.faceted role.facet
  · have hall : ∀ x ∈ Cpp.frameworkTypes, x ≠ "" ∧ NoSmallStart x := by decide +kernel
    exact hall name hframework

/-- In a model without empty names, everything that a header refers to is well spelled. -/
theorem Refers.wellSpelled {model : Model} (hnamed : model.Named) {element : Element}
    {role : Role} {n : TypeName} (h : Refers model .standard element role n) :
    n.WellSpelled .standard := by
  cases h with
  | library hs => exact wellSpelled_of_mem_systemHeaders hs
  | framework hx =>
      have hall : ∀ x ∈ Cpp.frameworkTypes, x ≠ "" := by decide
      exact hall _ hx
  | integer => exact wellSpelled_intType _
  | primitive _ _ hprimitive => exact wellSpelled_of_primitive hprimitive
  | declared hc hp _ => exact Cpp.typeName_ne_empty (hnamed.types _ hc _ hp)
  | base hc hb =>
      obtain ⟨k, hk, hname⟩ := List.mem_map.mp (hnamed.bases _ hc _ hb)
      exact Cpp.typeName_ne_empty (hname ▸ hnamed.classes k hk)
  | sibling hmem => exact Cpp.roleName_ne_empty hnamed hmem
  | link => exact Cpp.builderName_ne_empty _ _
  | clientLink => exact Cpp.builderName_ne_empty _ _
  | item => exact Cpp.builderName_ne_empty _ _

/-- The declared names that a header refers to hold no signs if no name of the model does. -/
theorem Refers.freeOf_signs {model : Model} (hfree : model.NamesFreeOf Cpp.signs)
    {element : Element} {role : Role} {x : String}
    (h : Refers model .standard element role (.user x)) : FreeOf Cpp.signs x := by
  have hall : ∀ x ∈ Cpp.frameworkTypes, x.toList.any Cpp.endsName = false := by decide +kernel
  exact h.freeOf (Cpp.naming_keeps (by decide) (by decide)) hfree fun x hx =>
    Cpp.freeOf_signs_iff.mpr (hall x hx)

/-! ## The headers of a model -/

section Headers

variable {model : Model} {serviceUrl : String} {element : Element} {role : Role}
  {names : List TypeName} {e : Entity}

/-- In a model without empty names, everything that a header mentions is well spelled. -/
theorem Rendered.wellSpelled_mentions (hnamed : model.Named)
    (hmem : (element, role) ∈ model.bindings)
    (h : Rendered (Model.standardSetting serviceUrl) element role names e) :
    ∀ n ∈ e.declaration.mentions, n.WellSpelled .standard := by
  intro n hn
  rcases List.mem_cons.mp (h.mentions_subset hn) with rfl | hnames
  · exact Cpp.wellSpelled_spellings "void" (by decide)
  · exact (h.refers hmem n hnames).wellSpelled hnamed

/-- A declared name that a header mentions is one that it depends on. -/
theorem Rendered.mem_of_user_mem_mentions
    (h : Rendered (Model.standardSetting serviceUrl) element role names e) {x : String}
    (hx : .user x ∈ e.declaration.mentions) : .user x ∈ names := by
  simpa using h.mentions_subset hx

/-- In a model without empty names, the header of a binding includes what it mentions. -/
theorem Rendered.selfContained (hnamed : model.Named) (hmem : (element, role) ∈ model.bindings)
    (h : Rendered (Model.standardSetting serviceUrl) element role names e) :
    e.SelfContained .standard := by
  obtain ⟨-, -, hdependencies⟩ := h.spec
  have hspelled := h.wellSpelled_mentions hnamed hmem
  constructor
  · intro x hx
    by_cases hown : x = e.name
    · exact Or.inl hown
    have hxnames := h.mem_of_user_mem_mentions hx
    have hxuser : x ∈ e.dependencies.user.toList := by
      rw [hdependencies, Dependencies.mem_user_foldl_add]
      exact Or.inl ⟨hxnames, hspelled _ hx, hown⟩
    exact Or.inr ⟨hxuser, Dependencies.mem_user_includes.mpr ⟨x, hxuser, rfl⟩⟩
  · intro s hs name hname header hheader
    obtain ⟨hne, hnames⟩ := hspelled _ hs
    have hneeded : header ∈ Target.standard.headersFor s := (hnames name hname).1 header hheader
    rcases List.mem_cons.mp (h.mentions_subset hs) with hvoid | hsnames
    · -- the empty type needs no header
      have hnone : Target.standard.headersFor "void" = [] := by decide +kernel
      rw [TypeName.system.inj hvoid, hnone] at hneeded
      cases hneeded
    · have hssystem : s ∈ e.dependencies.system.toList := by
        rw [hdependencies, Dependencies.mem_system_foldl_add]
        exact Or.inl ⟨hsnames, hne⟩
      exact Dependencies.mem_system_includes.mpr ⟨s, hssystem, hneeded⟩

/-- In a model whose names are not empty and hold no signs, the header of a binding includes all
names in what it mentions. -/
theorem Rendered.includesNamed (hnamed : model.Named) (hfree : model.NamesFreeOf Cpp.signs)
    (hmem : (element, role) ∈ model.bindings)
    (h : Rendered (Model.standardSetting serviceUrl) element role names e) :
    e.IncludesNamed .standard model := by
  have hself := h.selfContained hnamed hmem
  have hspelled := h.wellSpelled_mentions hnamed hmem
  -- a name from the model can only be read as a whole
  have hwhole : ∀ x, .user x ∈ e.declaration.mentions → FreeOf Cpp.signs x := fun x hx =>
    (h.refers hmem _ (h.mem_of_user_mem_mentions hx)).freeOf_signs hfree
  constructor
  · intro n hn name hname hknown
    cases n with
    | user x =>
        rw [Cpp.eq_of_mem_spelledNames (hwhole x hn) hname]
        exact hself.user x hn
    | system s =>
        obtain ⟨hne, hstart⟩ := hknown.noSmallStart hnamed
        rcases ((hspelled _ hn).2 name hname).2 with hempty | hsmall
        · exact absurd hempty hne
        · exact absurd hstart hsmall
  · intro n hn name hname header hheader
    cases n with
    | user x =>
        rw [Cpp.eq_of_mem_spelledNames (hwhole x hn) hname,
          Cpp.headersFor_of_freeOf (hwhole x hn)] at hheader
        cases hheader
    | system s => exact hself.system s hn name hname header hheader

end Headers

/-- The headers of a loaded model whose names can stand side by side are self-contained.  Unless the
names of the model or the types of its properties hold signs, they include everything that can be
read as a name in what they mention. -/
theorem Model.entities_selfContained {file : SourceFile} {format : Format} {model : Model}
    {serviceUrl : String} {ds : List Descriptor} (hload : file.load format = .ok model)
    (hds : model.descriptors (standardSetting serviceUrl) = .ok ds) :
    ∃ es, model.entities (standardSetting serviceUrl) = .ok es ∧
      (∀ e ∈ es, e.SelfContained .standard) ∧
      (model.NamesFreeOf Cpp.signs → ∀ e ∈ es, e.IncludesNamed .standard model) := by
  obtain ⟨es, hes⟩ := exists_entities hds
  have hnamed := SourceFile.named_of_load hload
  refine ⟨es, hes, ?_, ?_⟩
  · intro e he
    obtain ⟨element, role, names, hmem, hrendered⟩ := exists_rendered hes he
    exact hrendered.selfContained hnamed hmem
  · intro hfree e he
    obtain ⟨element, role, names, hmem, hrendered⟩ := exists_rendered hes he
    exact hrendered.includesNamed hnamed hfree hmem

/-- A document about a directory of users. -/
def directoryFile : SourceFile where
  name := "model.json"
  text :=
    "[\"demo\", [[\"color\", true, [[\"red\", 1]]]], [" ++
      "[\"directory\", \"container\", null, [[\"users\", \"user\", true, true]]]," ++
      "[\"user\", \"entity\", null, [[\"shades\", \"color\", true]]]]]"

/-- The model of a directory of users. -/
def directoryModel : Model :=
  .ofFile
    { space := "demo"
      enums := [⟨"color", true, [⟨"red", some 1⟩]⟩]
      classes :=
        [⟨"directory", .container, none, [⟨"users", "user", true, true, none, ""⟩]⟩,
          ⟨"user", .entity, none, [⟨"shades", "color", true, false, none, ""⟩]⟩] }

/-- The headers of the directory are self-contained and include all names in what they mention. -/
theorem directoryModel_selfContained :
    directoryFile.load .json = .ok directoryModel ∧ directoryModel.NamesFreeOf Cpp.signs ∧ ∃ ds,
      directoryModel.descriptors (Model.standardSetting Model.defaultServiceUrl) = .ok ds ∧
        ∃ es, directoryModel.entities (Model.standardSetting Model.defaultServiceUrl) = .ok es ∧
          ∀ e ∈ es, e.SelfContained .standard ∧ e.IncludesNamed .standard directoryModel := by
  have hload : directoryFile.load .json = .ok directoryModel := by decide +kernel
  have hfree : directoryModel.NamesFreeOf Cpp.signs :=
    ⟨by decide +kernel, by decide +kernel, by decide +kernel, by decide +kernel⟩
  have hds : ∃ ds, directoryModel.descriptors
      (Model.standardSetting Model.defaultServiceUrl) = .ok ds := ⟨_, rfl⟩
  obtain ⟨ds, hds⟩ := hds
  obtain ⟨es, hes, hself, hincludes⟩ := Model.entities_selfContained hload hds
  exact ⟨hload, hfree, ds, hds, es, hes, fun e he => ⟨hself e he, hincludes hfree e he⟩⟩

/-! ## A type with signs -/

/-- A document about holders of boxes. -/
def boxFile : SourceFile where
  name := "model.json"
  text :=
    "[\"demo\", [], [[\"user\", \"complex\"], [\"holder\", \"complex\", null, [" ++
      "[\"box\", \"box<User>\"], [\"wait\", \"box<std::future>\"]]]]]"

/-- The model of holders of boxes. -/
def boxModel : Model :=
  .ofFile
    { space := "demo"
      enums := []
      classes :=
        [⟨"user", .complex, none, []⟩,
          ⟨"holder", .complex, none,
            [⟨"box", "box<User>", false, false, none, ""⟩,
              ⟨"wait", "box<std::future>", false, false, none, ""⟩]⟩] }

/-- The header of holders depends on boxes of users as a whole: it does not include the header of
users, and for boxes of futures it does not include that of futures. -/
theorem boxModel_not_includesNamed :
    boxFile.load .json = .ok boxModel ∧ ∃ ds,
      boxModel.descriptors (Model.standardSetting Model.defaultServiceUrl) = .ok ds ∧
        ∃ es, boxModel.entities (Model.standardSetting Model.defaultServiceUrl) = .ok es ∧
          ∃ e ∈ es, e.name = "Holder" ∧
            (.user "Box<User>" ∈ e.declaration.mentions ∧ boxModel.Knows .standard "User" ∧
              "User" ∉ e.dependencies.user.toList) ∧
            (.user "Box<std::future>" ∈ e.declaration.mentions ∧
              "future" ∈ Target.standard.headersFor "std::future" ∧
              "future" ∉ (e.includes .standard).system.toList) ∧
            ¬ e.IncludesNamed .standard boxModel := by
  have hholder : ∃ es,
      boxModel.entities (Model.standardSetting Model.defaultServiceUrl) = .ok es ∧
        ∃ e ∈ es, e.name = "Holder" ∧
          (.user "Box<User>" ∈ e.declaration.mentions ∧ "User" ∉ e.dependencies.user.toList) ∧
          .user "Box<std::future>" ∈ e.declaration.mentions ∧
            "future" ∉ (e.includes .standard).system.toList :=
    ⟨_, rfl, by decide +kernel⟩
  have huser : boxModel.Declares Cpp.naming "User" :=
    ⟨.ofClass ⟨"user", .complex, none, []⟩, .dataType, by decide +kernel, by decide +kernel⟩
  obtain ⟨es, hes, e, he, hname, ⟨hbox, hother⟩, hwait, hfuture⟩ := hholder
  refine ⟨by decide +kernel, _, rfl, es, hes, e, he, hname, ⟨hbox, .inl huser, hother⟩,
    ⟨hwait, by decide +kernel, hfuture⟩, fun hincludes => ?_⟩
  have hnamed : "User" ∈ Cpp.spelledNames "Box<User>" := by decide +kernel
  rcases hincludes.user _ hbox "User" hnamed (.inl huser) with hown | hdependency
  · exact absurd (hown.trans hname) (by decide)
  · exact hother hdependency.1

end SdkHeaders
