import Mathlib.Data.List.Nodup
import Mathlib.Data.List.TakeWhile
import SdkHeaders.Proofs.BaseChain

/-!
# Valid model files

The conditions under which a model file describes a service, stated without reference to the
order of the checks, and the proof that validation accepts exactly the files that meet them.

Main results:

- Structure `ModelFile.Valid` lists the conditions.
- Theorem `ModelFile.validate_eq_ok_iff_valid`: validation accepts exactly the valid files,
  and its search along bases needs no bound.
-/

namespace SdkHeaders

open Relation

/-! ## New names -/

/-- The names are distinct, and none of them came earlier. -/
def Fresh (earlier names : List String) : Prop :=
  names.Nodup ∧ ∀ n ∈ names, n ∉ earlier

/-- No names are always new. -/
theorem fresh_nil (earlier : List String) : Fresh earlier [] := by
  simp [Fresh]

/-- Names are new one after the other. -/
theorem fresh_cons_iff {earlier names : List String} {name : String} :
    Fresh earlier (name :: names) ↔ name ∉ earlier ∧ Fresh (earlier ++ [name]) names := by
  unfold Fresh
  constructor
  · rintro ⟨hnodup, hnew⟩
    obtain ⟨hfirst, hrest⟩ := List.nodup_cons.mp hnodup
    refine ⟨hnew name List.mem_cons_self, hrest, ?_⟩
    intro n hn hmem
    rcases List.mem_append.mp hmem with hmem | hmem
    · exact hnew n (List.mem_cons_of_mem name hn) hmem
    · rw [List.mem_singleton.mp hmem] at hn
      exact hfirst hn
  · rintro ⟨hfirst, hrest, hnew⟩
    refine ⟨List.nodup_cons.mpr ⟨?_, hrest⟩, ?_⟩
    · intro hmem
      exact hnew name hmem (List.mem_append_right earlier List.mem_cons_self)
    · intro n hn
      rcases List.mem_cons.mp hn with rfl | hn
      · exact hfirst
      · exact fun hmem => hnew n hn (List.mem_append_left [name] hmem)

/-- Names after no others are new exactly if they are distinct. -/
theorem fresh_nil_left_iff {names : List String} : Fresh [] names ↔ names.Nodup := by
  simp [Fresh]

/-- Two runs of new names are one run of distinct names. -/
theorem nodup_append_iff_fresh {first second : List String} :
    (first ++ second).Nodup ↔ first.Nodup ∧ Fresh first second := by
  rw [List.nodup_append', Fresh]
  refine and_congr_right fun _ => and_congr_right fun _ => ?_
  exact ⟨fun h n hn hmem => h hmem hn, fun h n hmem hn => h n hn hmem⟩

/-! ## Conditions on declarations -/

/-- The members of an enumeration have distinct names, also after capitalization. -/
structure EnumDecl.Valid (e : EnumDecl) : Prop where
  members_named : ∀ m ∈ e.members, m.name ≠ ""
  members_nodup : (e.members.map EnumMember.name).Nodup
  enumerators_nodup : (e.members.map fun m => Text.capitalize m.name).Nodup

/-- The properties of a class have distinct names, and each has a type. -/
structure ClassDecl.Valid (c : ClassDecl) : Prop where
  properties_named : ∀ p ∈ c.properties, p.name ≠ ""
  properties_typed : ∀ p ∈ c.properties, p.type ≠ ""
  properties_nodup : (c.properties.map Property.name).Nodup

namespace ModelFile

/-- A class of the file has the first name and declares the second as its base. -/
def Derives (file : ModelFile) (name base : String) : Prop :=
  ∃ c ∈ file.classes, c.name = name ∧ c.base = some base

/-- The names of all declared types, enumerations before classes. -/
def typeNames (file : ModelFile) : List String :=
  file.enums.map EnumDecl.name ++ file.classes.map ClassDecl.name

/-- The declarations of a file are complete and can be told apart: the namespace is not blank,
all types are named, distinct and valid, and every base is a class of the file. -/
structure WellDeclared (file : ModelFile) : Prop where
  space : ∃ x ∈ file.space.toList, Text.isBlank x = false
  enums_named : ∀ e ∈ file.enums, e.name ≠ ""
  classes_named : ∀ c ∈ file.classes, c.name ≠ ""
  types_nodup : file.typeNames.Nodup
  enums_valid : ∀ e ∈ file.enums, e.Valid
  classes_valid : ∀ c ∈ file.classes, c.Valid
  bases_declared : ∀ c ∈ file.classes, ∀ b, c.base = some b →
    b ∈ file.classes.map ClassDecl.name

/-- Following bases from any class ends at a class without base. -/
def BasesEnd (file : ModelFile) : Prop :=
  ∀ c ∈ file.classes, ∃ root ∈ file.classes,
    ReflTransGen file.Derives c.name root.name ∧ root.base = none

/-- A file describes a service: its declarations are complete, and following bases ends. -/
structure Valid (file : ModelFile) : Prop extends file.WellDeclared where
  bases_end : file.BasesEnd

/-! ## The checks of declarations -/

/-- The members pass exactly if they are named and new, also after capitalization. -/
theorem checkMembers_eq_ok_iff (enumName : String) (earlier : List String)
    (members : List EnumMember) :
    checkMembers enumName earlier members = .ok () ↔
      (∀ m ∈ members, m.name ≠ "") ∧ Fresh earlier (members.map EnumMember.name) ∧
        Fresh (earlier.map Text.capitalize) (members.map fun m => Text.capitalize m.name) := by
  induction members generalizing earlier with
  | nil => simp [checkMembers, fresh_nil]
  | cons member rest ih =>
      simp only [List.map_cons, List.forall_mem_cons, fresh_cons_iff]
      unfold checkMembers
      by_cases hname : member.name = ""
      · simp [hname]
      by_cases hmem : member.name ∈ earlier
      · simp [hname, hmem]
      rw [if_neg hname, if_neg hmem]
      cases hfind : earlier.find? fun name =>
          Text.capitalize name = Text.capitalize member.name with
      | some first =>
          have hclash : Text.capitalize member.name ∈ earlier.map Text.capitalize := by
            have heq : Text.capitalize first = Text.capitalize member.name := by
              simpa using List.find?_some hfind
            exact List.mem_map.mpr ⟨first, List.mem_of_find?_eq_some hfind, heq⟩
          simp [hfind, hclash]
      | none =>
          have hnew : Text.capitalize member.name ∉ earlier.map Text.capitalize := by
            intro hclash
            obtain ⟨first, hfirst, heq⟩ := List.mem_map.mp hclash
            have := List.find?_eq_none.mp hfind first hfirst
            simp [heq] at this
          have hmap : (earlier ++ [member.name]).map Text.capitalize =
              earlier.map Text.capitalize ++ [Text.capitalize member.name] := by
            simp
          simp only [hfind, ih, hmap, hname, hmem, hnew, ne_eq, not_false_eq_true, true_and]

/-- An enumeration passes exactly if it is named and valid. -/
theorem checkEnum_eq_ok_iff (e : EnumDecl) :
    checkEnum e = .ok () ↔ e.name ≠ "" ∧ e.Valid := by
  unfold checkEnum
  by_cases hname : e.name = ""
  · simp [hname]
  · rw [if_neg hname, checkMembers_eq_ok_iff, List.map_nil, fresh_nil_left_iff,
      fresh_nil_left_iff]
    constructor
    · rintro ⟨hnamed, hnodup, hcapital⟩
      exact ⟨hname, hnamed, hnodup, hcapital⟩
    · rintro ⟨-, hvalid⟩
      exact ⟨hvalid.members_named, hvalid.members_nodup, hvalid.enumerators_nodup⟩

/-- The properties pass exactly if they are named, typed and new. -/
theorem checkProperties_eq_ok_iff (className : String) (earlier : List String)
    (properties : List Property) :
    checkProperties className earlier properties = .ok () ↔
      (∀ p ∈ properties, p.name ≠ "") ∧ (∀ p ∈ properties, p.type ≠ "") ∧
        Fresh earlier (properties.map Property.name) := by
  induction properties generalizing earlier with
  | nil => simp [checkProperties, fresh_nil]
  | cons property rest ih =>
      simp only [List.map_cons, List.forall_mem_cons, fresh_cons_iff]
      unfold checkProperties
      by_cases hname : property.name = ""
      · simp [hname]
      by_cases htype : property.type = ""
      · simp [hname, htype]
      by_cases hmem : property.name ∈ earlier
      · simp [hname, htype, hmem]
      rw [if_neg hname, if_neg htype, if_neg hmem, ih]
      tauto

/-- A class passes exactly if it is named and valid. -/
theorem checkClass_eq_ok_iff (c : ClassDecl) :
    checkClass c = .ok () ↔ c.name ≠ "" ∧ c.Valid := by
  unfold checkClass
  by_cases hname : c.name = ""
  · simp [hname]
  · rw [if_neg hname, checkProperties_eq_ok_iff, fresh_nil_left_iff]
    constructor
    · rintro ⟨hnamed, htyped, hnodup⟩
      exact ⟨hname, hnamed, htyped, hnodup⟩
    · rintro ⟨-, hvalid⟩
      exact ⟨hvalid.properties_named, hvalid.properties_typed, hvalid.properties_nodup⟩

/-- Declarations pass exactly if each passes by itself and their names are new; the names
passed are then those from before and theirs. -/
theorem checkTypes_eq_ok_iff {α : Type} (check : α → Verdict Unit) (nameOf : α → String)
    (earlier : List String) (declared : List α) (names : List String) :
    checkTypes check nameOf earlier declared = .ok names ↔
      (∀ a ∈ declared, check a = .ok ()) ∧ Fresh earlier (declared.map nameOf) ∧
        names = earlier ++ declared.map nameOf := by
  induction declared generalizing earlier with
  | nil => simp [checkTypes, fresh_nil, eq_comm]
  | cons first rest ih =>
      simp only [List.map_cons, List.forall_mem_cons, fresh_cons_iff]
      unfold checkTypes
      cases hcheck : check first with
      | error violation => simp
      | ok _ =>
          by_cases hmem : nameOf first ∈ earlier
          · simp [hmem]
          · simp only [if_neg hmem, ih, List.append_assoc, List.singleton_append]
            tauto

/-! ## The check of bases -/

/-- If the classes have distinct names, the base that is looked up under a name is the one
that the class of the name declares. -/
theorem baseOf_eq_some_iff {classes : List ClassDecl}
    (hnodup : (classes.map ClassDecl.name).Nodup) {name base : String} :
    baseOf classes name = some base ↔ ∃ c ∈ classes, c.name = name ∧ c.base = some base := by
  unfold baseOf
  rw [Option.bind_eq_some_iff]
  constructor
  · rintro ⟨c, hfind, hbase⟩
    have hname : c.name = name := by simpa using List.find?_some hfind
    exact ⟨c, List.mem_of_find?_eq_some hfind, hname, hbase⟩
  · rintro ⟨c, hmem, hname, hbase⟩
    cases hfind : classes.find? fun d => d.name = name with
    | none =>
        have := List.find?_eq_none.mp hfind c hmem
        simp [hname] at this
    | some d =>
        have hdname : d.name = name := by simpa using List.find?_some hfind
        have heq : d = c := List.inj_on_of_nodup_map hnodup
          (List.mem_of_find?_eq_some hfind) hmem (hdname.trans hname.symm)
        exact ⟨c, by rw [heq], hbase⟩

/-- Only names of classes have a base. -/
theorem mem_names_of_leads {classes : List ClassDecl} {a b : String}
    (h : Leads (baseOf classes) a b) : a ∈ classes.map ClassDecl.name := by
  obtain ⟨c, hfind, -⟩ := Option.bind_eq_some_iff.mp h
  have hname : c.name = a := by simpa using List.find?_some hfind
  exact List.mem_map.mpr ⟨c, List.mem_of_find?_eq_some hfind, hname⟩

/-- The search along the bases of a class has the outcome of the search without a bound. -/
theorem baseWalk_of_class (classes : List ClassDecl) (c : ClassDecl) (b : String) :
    BaseWalk (baseOf classes) [c.name] b
      (repeatedChain (baseOf classes) (classes.length + 1) [c.name] b) := by
  refine repeatedChain_walk (fun _ _ => mem_names_of_leads) ?_
  have hle := card_unvisited_le (classes.map ClassDecl.name) [c.name]
  rw [List.length_map] at hle
  omega

/-- The base of a class passes exactly if it is a class and no class is met twice on the way
from it. -/
theorem checkBase_eq_ok_iff (classes : List ClassDecl) (c : ClassDecl) :
    checkBase classes c = .ok () ↔
      ∀ b, c.base = some b → b ∈ classes.map ClassDecl.name ∧
        repeatedChain (baseOf classes) (classes.length + 1) [c.name] b = none := by
  unfold checkBase
  cases hbase : c.base with
  | none => simp
  | some b =>
      simp only [Option.some.injEq, forall_eq']
      by_cases hmem : b ∈ classes.map ClassDecl.name
      · have hany : (classes.any fun d => d.name = b) = true := by
          obtain ⟨d, hd, hname⟩ := List.mem_map.mp hmem
          exact List.any_eq_true.mpr ⟨d, hd, by simpa using hname⟩
        rw [if_pos hany]
        cases hchain : repeatedChain (baseOf classes) (classes.length + 1) [c.name] b with
        | none => simp [hmem]
        | some chain => simp
      · have hany : ¬ (classes.any fun d => d.name = b) = true := by
          intro hany
          obtain ⟨d, hd, hname⟩ := List.any_eq_true.mp hany
          exact hmem (List.mem_map.mpr ⟨d, hd, by simpa using hname⟩)
        rw [if_neg hany]
        simp [hmem]

/-- The bases of some classes pass exactly if each passes. -/
theorem checkBases_eq_ok_iff (classes some : List ClassDecl) :
    checkBases classes some = .ok () ↔ ∀ c ∈ some, checkBase classes c = .ok () := by
  induction some with
  | nil => simp [checkBases]
  | cons c rest ih =>
      unfold checkBases
      cases hcheck : checkBase classes c with
      | error violation => simp [hcheck]
      | ok _ => simp [hcheck, ih]

/-! ## Bases of well declared files -/

namespace WellDeclared

variable {file : ModelFile}

/-- The classes of a well declared file have distinct names. -/
theorem classes_nodup (h : file.WellDeclared) : (file.classes.map ClassDecl.name).Nodup :=
  (nodup_append_iff_fresh.mp h.types_nodup).2.1

/-- In a well declared file a name leads to a base exactly if its class derives from it. -/
theorem leads_eq_derives (h : file.WellDeclared) :
    Leads (baseOf file.classes) = file.Derives := by
  funext a b
  exact propext (baseOf_eq_some_iff h.classes_nodup)

/-- In a well declared file the base that is looked up for a class is the declared one. -/
theorem baseOf_name (h : file.WellDeclared) {c : ClassDecl} (hc : c ∈ file.classes) :
    baseOf file.classes c.name = c.base := by
  cases hbase : c.base with
  | some b => exact (baseOf_eq_some_iff h.classes_nodup).mpr ⟨c, hc, rfl, hbase⟩
  | none =>
      rw [Option.eq_none_iff_forall_ne_some]
      intro b hb
      obtain ⟨d, hd, hname, hdbase⟩ := (baseOf_eq_some_iff h.classes_nodup).mp hb
      have heq : d = c := List.inj_on_of_nodup_map h.classes_nodup hd hc hname
      rw [heq, hbase] at hdbase
      cases hdbase

/-- Every name that is reached along bases from a class is the name of a class. -/
theorem exists_class_of_path (h : file.WellDeclared) {c : ClassDecl} (hc : c ∈ file.classes)
    {name : String} (hpath : ReflTransGen file.Derives c.name name) :
    ∃ d ∈ file.classes, d.name = name := by
  rcases ReflTransGen.cases_tail hpath with heq | ⟨_, -, d, hd, -, hbase⟩
  · exact ⟨c, hc, heq.symm⟩
  · exact List.mem_map.mp (h.bases_declared d hd name hbase)

/-- Following bases from the name of a class ends exactly if it ends at a class without
base. -/
theorem ends_iff (h : file.WellDeclared) {c : ClassDecl} (hc : c ∈ file.classes) :
    Ends (baseOf file.classes) c.name ↔
      ∃ root ∈ file.classes, ReflTransGen file.Derives c.name root.name ∧ root.base = none := by
  unfold Ends
  rw [h.leads_eq_derives]
  constructor
  · rintro ⟨name, hpath, hbase⟩
    obtain ⟨root, hroot, rfl⟩ := h.exists_class_of_path hc hpath
    exact ⟨root, hroot, hpath, (h.baseOf_name hroot).symm.trans hbase⟩
  · rintro ⟨root, hroot, hpath, hbase⟩
    exact ⟨root.name, hpath, (h.baseOf_name hroot).trans hbase⟩

/-- In a well declared file the base of a class leads nowhere twice exactly if following bases
from the class ends at a class without base. -/
theorem checkBase_eq_ok_iff_ends (h : file.WellDeclared) {c : ClassDecl}
    (hc : c ∈ file.classes) :
    checkBase file.classes c = .ok () ↔ Ends (baseOf file.classes) c.name := by
  rw [checkBase_eq_ok_iff]
  constructor
  · intro hcheck
    cases hbase : c.base with
    | none => exact ⟨c.name, ReflTransGen.refl, (h.baseOf_name hc).trans hbase⟩
    | some b =>
        have hends := (baseWalk_of_class file.classes c b).ends (hcheck b hbase).2
        exact hends.head ((h.baseOf_name hc).trans hbase)
  · intro hends b hbase
    have hstep : Leads (baseOf file.classes) c.name b := (h.baseOf_name hc).trans hbase
    have hwalk := baseWalk_of_class file.classes c b
    exact ⟨h.bases_declared c hc b hbase,
      (hwalk.eq_none_iff (transGen_of_mem_singleton hstep)).mpr (hends.tail hstep)⟩

/-- In a well declared file following bases ends exactly if no name is below itself. -/
theorem basesEnd_iff_acyclic (h : file.WellDeclared) :
    file.BasesEnd ↔ ∀ name, ¬ TransGen file.Derives name name := by
  constructor
  · intro hends name hcycle
    obtain ⟨_, ⟨c, hc, rfl, hbase⟩, -⟩ := TransGen.head'_iff.mp hcycle
    rw [← h.leads_eq_derives] at hcycle
    exact ((h.ends_iff hc).mpr (hends c hc)).not_transGen hcycle
  · intro hacyclic c hc
    rw [← h.leads_eq_derives] at hacyclic
    exact (h.ends_iff hc).mp (ends_of_acyclic (fun _ _ => mem_names_of_leads) hacyclic c.name)

end WellDeclared

/-! ## Validation -/

/-- Characters are trimmed to nothing exactly if all are blank. -/
theorem trimChars_eq_nil_iff (cs : List Char) :
    Text.trimChars cs = [] ↔ ∀ x ∈ cs, Text.isBlank x = true := by
  simp only [Text.trimChars, List.reverse_eq_nil_iff, List.dropWhile_eq_nil_iff,
    List.mem_reverse]
  constructor
  · intro h x hx
    rw [← List.takeWhile_append_dropWhile (p := Text.isBlank) (l := cs)] at hx
    rcases List.mem_append.mp hx with hx | hx
    · exact List.mem_takeWhile_imp hx
    · exact h x hx
  · intro h x hx
    exact h x ((List.dropWhile_sublist _).mem hx)

/-- A text is trimmed to something exactly if it has a character that is not blank. -/
theorem trim_ne_empty_iff (s : String) :
    Text.trim s ≠ "" ↔ ∃ x ∈ s.toList, Text.isBlank x = false := by
  rw [ne_eq, Text.trim, ← String.toList_inj, String.toList_ofList, String.toList_empty,
    trimChars_eq_nil_iff]
  simp

/-- Validation accepts a file exactly if the steps that it consists of succeed. -/
theorem validate_eq_ok_iff_steps (file : ModelFile) :
    file.validate = .ok () ↔
      Text.trim file.space ≠ "" ∧
        ∃ names, checkTypes checkEnum EnumDecl.name [] file.enums = .ok names ∧
          (∃ all, checkTypes checkClass ClassDecl.name names file.classes = .ok all) ∧
            checkBases file.classes file.classes = .ok () := by
  unfold validate
  by_cases hspace : Text.trim file.space = ""
  · simp [hspace]
  rw [if_neg hspace]
  cases checkTypes checkEnum EnumDecl.name [] file.enums with
  | error violation => simp
  | ok names =>
      simp only [Except.ok.injEq, exists_eq_left']
      cases checkTypes checkClass ClassDecl.name names file.classes with
      | error violation => simp
      | ok all => simp [hspace]

/-- Validation accepts a file exactly if every check passes and the types have distinct
names. -/
theorem validate_eq_ok_iff_checks (file : ModelFile) :
    file.validate = .ok () ↔
      Text.trim file.space ≠ "" ∧ (∀ e ∈ file.enums, checkEnum e = .ok ()) ∧
        (∀ c ∈ file.classes, checkClass c = .ok ()) ∧ file.typeNames.Nodup ∧
          ∀ c ∈ file.classes, checkBase file.classes c = .ok () := by
  rw [validate_eq_ok_iff_steps, checkBases_eq_ok_iff, typeNames, nodup_append_iff_fresh]
  simp only [checkTypes_eq_ok_iff, fresh_nil_left_iff, List.nil_append]
  constructor
  · rintro ⟨hspace, _, ⟨henums, hnodup, rfl⟩, ⟨_, hclasses, hnew, -⟩, hbases⟩
    exact ⟨hspace, henums, hclasses, ⟨hnodup, hnew⟩, hbases⟩
  · rintro ⟨hspace, henums, hclasses, ⟨hnodup, hnew⟩, hbases⟩
    exact ⟨hspace, _, ⟨henums, hnodup, rfl⟩, ⟨_, hclasses, hnew, rfl⟩, hbases⟩

/-- Validation accepts exactly the valid files. -/
theorem validate_eq_ok_iff (file : ModelFile) : file.validate = .ok () ↔ file.Valid := by
  rw [validate_eq_ok_iff_checks, trim_ne_empty_iff]
  constructor
  · rintro ⟨hspace, henums, hclasses, hnodup, hbases⟩
    have hdeclared : file.WellDeclared :=
      { space := hspace
        enums_named := fun e he => ((checkEnum_eq_ok_iff e).mp (henums e he)).1
        classes_named := fun c hc => ((checkClass_eq_ok_iff c).mp (hclasses c hc)).1
        types_nodup := hnodup
        enums_valid := fun e he => ((checkEnum_eq_ok_iff e).mp (henums e he)).2
        classes_valid := fun c hc => ((checkClass_eq_ok_iff c).mp (hclasses c hc)).2
        bases_declared := fun c hc b hb =>
          ((checkBase_eq_ok_iff file.classes c).mp (hbases c hc) b hb).1 }
    refine ⟨hdeclared, ?_⟩
    intro c hc
    exact (hdeclared.ends_iff hc).mp ((hdeclared.checkBase_eq_ok_iff_ends hc).mp (hbases c hc))
  · intro h
    refine ⟨h.space, ?_, ?_, h.types_nodup, ?_⟩
    · intro e he
      exact (checkEnum_eq_ok_iff e).mpr ⟨h.enums_named e he, h.enums_valid e he⟩
    · intro c hc
      exact (checkClass_eq_ok_iff c).mpr ⟨h.classes_named c hc, h.classes_valid c hc⟩
    · intro c hc
      have hends := (h.toWellDeclared.ends_iff hc).mpr (h.bases_end c hc)
      exact (h.toWellDeclared.checkBase_eq_ok_iff_ends hc).mpr hends

/-- Validation accepts exactly the valid files, in which following bases ends exactly if no
name is below itself.  The search along the bases of a class ends by itself, with the outcome
that validation finds in a bounded number of steps. -/
theorem validate_eq_ok_iff_valid (file : ModelFile) :
    (file.validate = .ok () ↔ file.Valid) ∧
      (file.WellDeclared →
        (file.BasesEnd ↔ ∀ name, ¬ TransGen file.Derives name name)) ∧
      ∀ c ∈ file.classes, ∀ b, c.base = some b →
        BaseWalk (baseOf file.classes) [c.name] b
          (repeatedChain (baseOf file.classes) (file.classes.length + 1) [c.name] b) :=
  ⟨file.validate_eq_ok_iff, fun h => h.basesEnd_iff_acyclic,
    fun c _ b _ => baseWalk_of_class file.classes c b⟩

end ModelFile

end SdkHeaders
