import SdkHeaders.Proofs.Validity

/-!
# Reported violations

What is wrong with a model file for which validation reports a violation.

Main results:

- Structure `RepeatsAt` says where names first repeat.
- Relations `EnumDecl.Breaks`, `ClassDecl.Breaks` and `ModelFile.Breaks` say what a violation tells
  about an enumeration, a class and a file.
- Theorem `ModelFile.breaks_of_validate`: the violation that is reported for a file is one of the
  file.
-/

namespace SdkHeaders

/-! ## Repeated names -/

/-- A name stands at two places of a list, and no name repeats before the second one. -/
structure RepeatsAt (names : List String) (i j : Nat) (name : String) : Prop where
  lt : i < j
  first : names[i]? = some name
  second : names[j]? = some name
  nodup : (names.take j).Nodup

/-- A name that comes up again behind distinct names repeats one of them. -/
theorem exists_repeatsAt {earlier : List String} {name : String} (hnodup : earlier.Nodup)
    (hmem : name ∈ earlier) (rest : List String) :
    ∃ i j, RepeatsAt (earlier ++ name :: rest) i j name := by
  obtain ⟨i, hi, hname⟩ := List.mem_iff_getElem.mp hmem
  refine ⟨i, earlier.length, hi, ?_, ?_, ?_⟩
  · rw [List.getElem?_append_left hi, List.getElem?_eq_getElem hi, hname]
  · rw [List.getElem?_append_right (Nat.le_refl _), Nat.sub_self]
    rfl
  · rwa [List.take_left]

/-- Names that repeat still do so in front of further names. -/
theorem RepeatsAt.append {names : List String} {i j : Nat} {name : String}
    (h : RepeatsAt names i j name) (later : List String) : RepeatsAt (names ++ later) i j name := by
  have hj : j < names.length := (List.getElem?_eq_some_iff.mp h.second).1
  have hi : i < names.length := h.lt.trans hj
  refine ⟨h.lt, ?_, ?_, ?_⟩
  · rw [List.getElem?_append_left hi, h.first]
  · rw [List.getElem?_append_left hj, h.second]
  · rw [List.take_append_of_le_length hj.le]
    exact h.nodup

/-- Distinct names stay distinct with a new one behind them. -/
theorem nodup_concat {earlier : List String} {name : String} (hnodup : earlier.Nodup)
    (hnew : name ∉ earlier) : (earlier ++ [name]).Nodup :=
  List.nodup_append_comm.mpr (List.nodup_cons.mpr ⟨hnew, hnodup⟩)

/-! ## What violations say -/

/-- What a violation says about an enumeration. -/
inductive EnumDecl.Breaks (e : EnumDecl) : Violation → Prop
  /-- The enumeration has no name. -/
  | unnamed (h : e.name = "") : Breaks e .emptyEnumName
  /-- A member has no name. -/
  | unnamedMember {m : EnumMember} (hm : m ∈ e.members) (h : m.name = "") :
      Breaks e (.emptyMemberName e.name)
  /-- A name of members repeats. -/
  | memberAgain {i j : Nat} {name : String} (hname : name ≠ "")
      (h : RepeatsAt (e.members.map EnumMember.name) i j name) : Breaks e (.duplicateMember name)
  /-- Two members with different names become one enumerator. -/
  | shared {first second : EnumMember} (hfirst : first ∈ e.members) (hsecond : second ∈ e.members)
      (hne : first.name ≠ second.name)
      (h : Text.capitalize first.name = Text.capitalize second.name) :
      Breaks e (.sharedEnumerator e.name first.name second.name (Text.capitalize second.name))

/-- What a violation says about a class apart from its base. -/
inductive ClassDecl.Breaks (c : ClassDecl) : Violation → Prop
  /-- The class has no name. -/
  | unnamed (h : c.name = "") : Breaks c .emptyClassName
  /-- A property has no name. -/
  | unnamedProperty {p : Property} (hp : p ∈ c.properties) (h : p.name = "") :
      Breaks c (.emptyPropertyName c.name)
  /-- A property has no type. -/
  | untyped {p : Property} (hp : p ∈ c.properties) (h : p.type = "") :
      Breaks c (.missingType c.name p.name)
  /-- A name of properties repeats. -/
  | propertyAgain {i j : Nat} {name : String} (hname : name ≠ "")
      (h : RepeatsAt (c.properties.map Property.name) i j name) : Breaks c (.duplicateProperty name)

/-- What a violation says about a model file. -/
inductive ModelFile.Breaks (file : ModelFile) : Violation → Prop
  /-- The namespace is blank. -/
  | blankSpace (h : Text.trim file.space = "") : Breaks file .blankNamespace
  /-- Something is wrong with an enumeration. -/
  | ofEnum {e : EnumDecl} {violation : Violation} (he : e ∈ file.enums)
      (h : e.Breaks violation) : Breaks file violation
  /-- Something is wrong with a class. -/
  | ofClass {c : ClassDecl} {violation : Violation} (hc : c ∈ file.classes)
      (h : c.Breaks violation) : Breaks file violation
  /-- A name of types repeats. -/
  | typeAgain {i j : Nat} {name : String} (hname : name ≠ "")
      (h : RepeatsAt file.typeNames i j name) : Breaks file (.duplicateType name)
  /-- The types have distinct names, and the base of a class is none of the classes. -/
  | unknownBase {c : ClassDecl} {b : String} (hnodup : file.typeNames.Nodup)
      (hc : c ∈ file.classes) (hbase : c.base = some b)
      (h : b ∉ file.classes.map ClassDecl.name) : Breaks file (.unknownBase c.name b)
  /-- The types have distinct names, and a name repeats on the way along the bases of a class, but
  not for the classes before it. -/
  | baseCycle {before after : List ClassDecl} {c : ClassDecl} {b : String} {chain : List String}
      (hnodup : file.typeNames.Nodup) (hsplit : file.classes = before ++ c :: after)
      (hbefore : ∀ d ∈ before, ModelFile.checkBase file.classes d = .ok ())
      (hbase : c.base = some b)
      (h : BaseWalk (ModelFile.baseOf file.classes) [c.name] b (some chain)) :
      Breaks file (.baseCycle c.name chain)

/-! ## Soundness of the checks -/

namespace ModelFile

variable {violation : Violation}

/-- A failed check of members after distinct names tells what is wrong with the members. -/
theorem breaks_of_checkMembers {e : EnumDecl} (passed : List EnumMember)
    {members : List EnumMember} (hsplit : e.members = passed ++ members)
    (hnodup : (passed.map EnumMember.name).Nodup)
    (h : checkMembers e.name (passed.map EnumMember.name) members = .error violation) :
    e.Breaks violation := by
  induction members generalizing passed with
  | nil => cases h
  | cons m rest ih =>
      have hm : m ∈ e.members := by
        rw [hsplit]
        exact List.mem_append_right passed List.mem_cons_self
      unfold checkMembers at h
      by_cases hname : m.name = ""
      · rw [if_pos hname] at h
        cases h
        exact .unnamedMember hm hname
      rw [if_neg hname] at h
      by_cases hmem : m.name ∈ passed.map EnumMember.name
      · rw [if_pos hmem] at h
        cases h
        obtain ⟨i, j, hrepeats⟩ := exists_repeatsAt hnodup hmem (rest.map EnumMember.name)
        refine .memberAgain (i := i) (j := j) hname ?_
        rwa [hsplit, List.map_append, List.map_cons]
      rw [if_neg hmem] at h
      cases hfind : (passed.map EnumMember.name).find? fun name =>
          Text.capitalize name = Text.capitalize m.name with
      | some first =>
          simp only [hfind] at h
          cases h
          obtain ⟨other, hother, rfl⟩ := List.mem_map.mp (List.mem_of_find?_eq_some hfind)
          have hcapital : Text.capitalize other.name = Text.capitalize m.name := by
            simpa using List.find?_some hfind
          have hne : other.name ≠ m.name := fun heq =>
            hmem (heq ▸ List.mem_map_of_mem hother)
          have hfirst : other ∈ e.members := by
            rw [hsplit]
            exact List.mem_append_left _ hother
          exact .shared hfirst hm hne hcapital
      | none =>
          simp only [hfind] at h
          refine ih (passed ++ [m]) ?_ ?_ ?_
          · rw [hsplit, List.append_assoc, List.singleton_append]
          · rw [List.map_append]
            exact nodup_concat hnodup hmem
          · rwa [List.map_append]

/-- A failed check of an enumeration tells what is wrong with it. -/
theorem breaks_of_checkEnum {e : EnumDecl} (h : checkEnum e = .error violation) :
    e.Breaks violation := by
  unfold checkEnum at h
  by_cases hname : e.name = ""
  · rw [if_pos hname] at h
    cases h
    exact .unnamed hname
  · rw [if_neg hname] at h
    exact breaks_of_checkMembers [] rfl List.nodup_nil h

/-- A failed check of properties after distinct names tells what is wrong with the properties. -/
theorem breaks_of_checkProperties {c : ClassDecl} (passed : List Property)
    {properties : List Property} (hsplit : c.properties = passed ++ properties)
    (hnodup : (passed.map Property.name).Nodup)
    (h : checkProperties c.name (passed.map Property.name) properties = .error violation) :
    c.Breaks violation := by
  induction properties generalizing passed with
  | nil => cases h
  | cons p rest ih =>
      have hp : p ∈ c.properties := by
        rw [hsplit]
        exact List.mem_append_right passed List.mem_cons_self
      unfold checkProperties at h
      by_cases hname : p.name = ""
      · rw [if_pos hname] at h
        cases h
        exact .unnamedProperty hp hname
      rw [if_neg hname] at h
      by_cases htype : p.type = ""
      · rw [if_pos htype] at h
        cases h
        exact .untyped hp htype
      rw [if_neg htype] at h
      by_cases hmem : p.name ∈ passed.map Property.name
      · rw [if_pos hmem] at h
        cases h
        obtain ⟨i, j, hrepeats⟩ := exists_repeatsAt hnodup hmem (rest.map Property.name)
        refine .propertyAgain (i := i) (j := j) hname ?_
        rwa [hsplit, List.map_append, List.map_cons]
      · rw [if_neg hmem] at h
        refine ih (passed ++ [p]) ?_ ?_ ?_
        · rw [hsplit, List.append_assoc, List.singleton_append]
        · rw [List.map_append]
          exact nodup_concat hnodup hmem
        · rwa [List.map_append]

/-- A failed check of a class tells what is wrong with it. -/
theorem breaks_of_checkClass {c : ClassDecl} (h : checkClass c = .error violation) :
    c.Breaks violation := by
  unfold checkClass at h
  by_cases hname : c.name = ""
  · rw [if_pos hname] at h
    cases h
    exact .unnamed hname
  · rw [if_neg hname] at h
    exact breaks_of_checkProperties [] rfl List.nodup_nil h

/-- A failed check of declarations after distinct names is that of one of them, or a name
repeats. -/
theorem exists_of_checkTypes {α : Type} {check : α → Verdict Unit} {nameOf : α → String}
    (hnamed : ∀ a, check a = .ok () → nameOf a ≠ "") {earlier : List String} {declared : List α}
    (hnodup : earlier.Nodup)
    (h : checkTypes check nameOf earlier declared = .error violation) :
    (∃ a ∈ declared, check a = .error violation) ∨
      ∃ i j name, name ≠ "" ∧ RepeatsAt (earlier ++ declared.map nameOf) i j name ∧
        violation = .duplicateType name := by
  induction declared generalizing earlier with
  | nil => cases h
  | cons a rest ih =>
      unfold checkTypes at h
      cases hcheck : check a with
      | error other =>
          rw [hcheck] at h
          cases h
          exact .inl ⟨a, List.mem_cons_self, hcheck⟩
      | ok _ =>
          simp only [hcheck] at h
          by_cases hmem : nameOf a ∈ earlier
          · rw [if_pos hmem] at h
            cases h
            obtain ⟨i, j, hrepeats⟩ := exists_repeatsAt hnodup hmem (rest.map nameOf)
            exact .inr ⟨i, j, nameOf a, hnamed a hcheck, hrepeats, rfl⟩
          · rw [if_neg hmem] at h
            have hnames : earlier ++ (a :: rest).map nameOf =
                (earlier ++ [nameOf a]) ++ rest.map nameOf := by simp
            rw [hnames]
            rcases ih (nodup_concat hnodup hmem) h with ⟨b, hb, hviolation⟩ | hrepeats
            · exact .inl ⟨b, List.mem_cons_of_mem a hb, hviolation⟩
            · exact .inr hrepeats

/-- A failed check of a base finds a name that is no class or repeats on the way along bases. -/
theorem exists_of_checkBase {classes : List ClassDecl} {c : ClassDecl}
    (h : checkBase classes c = .error violation) :
    ∃ b, c.base = some b ∧
      ((b ∉ classes.map ClassDecl.name ∧ violation = .unknownBase c.name b) ∨
        ∃ chain, BaseWalk (baseOf classes) [c.name] b (some chain) ∧
          violation = .baseCycle c.name chain) := by
  unfold checkBase at h
  cases hbase : c.base with
  | none =>
      rw [hbase] at h
      cases h
  | some b =>
      simp only [hbase] at h
      refine ⟨b, rfl, ?_⟩
      by_cases hany : (classes.any fun d => d.name = b) = true
      · rw [if_pos hany] at h
        have hwalk := baseWalk_of_class classes c b
        cases hchain : repeatedChain (baseOf classes) (classes.length + 1) [c.name] b with
        | none =>
            rw [hchain] at h
            cases h
        | some chain =>
            rw [hchain] at h hwalk
            cases h
            exact .inr ⟨chain, hwalk, rfl⟩
      · rw [if_neg hany] at h
        cases h
        refine .inl ⟨fun hmem => hany ?_, rfl⟩
        obtain ⟨d, hd, rfl⟩ := List.mem_map.mp hmem
        exact List.any_eq_true.mpr ⟨d, hd, decide_eq_true rfl⟩

/-- A failed check of bases is that of the first class whose check fails. -/
theorem exists_of_checkBases {classes some : List ClassDecl}
    (h : checkBases classes some = .error violation) :
    ∃ before c after, some = before ++ c :: after ∧
      (∀ d ∈ before, checkBase classes d = .ok ()) ∧ checkBase classes c = .error violation := by
  induction some with
  | nil => cases h
  | cons c rest ih =>
      unfold checkBases at h
      cases hcheck : checkBase classes c with
      | error other =>
          rw [hcheck] at h
          cases h
          exact ⟨[], c, rest, rfl, List.forall_mem_nil _, hcheck⟩
      | ok _ =>
          simp only [hcheck] at h
          obtain ⟨before, d, after, rfl, hbefore, hd⟩ := ih h
          exact ⟨c :: before, d, after, rfl, List.forall_mem_cons.mpr ⟨hcheck, hbefore⟩, hd⟩

/-- A failed check of bases tells what is wrong with a file whose types have distinct names. -/
theorem breaks_of_checkBases {file : ModelFile} (hnodup : file.typeNames.Nodup)
    (h : checkBases file.classes file.classes = .error violation) : file.Breaks violation := by
  obtain ⟨before, c, after, hsplit, hbefore, hcheck⟩ := exists_of_checkBases h
  obtain ⟨b, hbase, ⟨hunknown, rfl⟩ | ⟨chain, hwalk, rfl⟩⟩ := exists_of_checkBase hcheck
  · have hc : c ∈ file.classes := by
      rw [hsplit]
      exact List.mem_append_right before List.mem_cons_self
    exact .unknownBase hnodup hc hbase hunknown
  · exact .baseCycle hnodup hsplit hbefore hbase hwalk

/-- The violation that validation reports for a file is one of the file. -/
theorem breaks_of_validate {file : ModelFile} (h : file.validate = .error violation) :
    file.Breaks violation := by
  have henum : ∀ e, checkEnum e = .ok () → e.name ≠ "" := fun e he =>
    ((checkEnum_eq_ok_iff e).mp he).1
  have hclass : ∀ c, checkClass c = .ok () → c.name ≠ "" := fun c hc =>
    ((checkClass_eq_ok_iff c).mp hc).1
  unfold validate at h
  by_cases hspace : Text.trim file.space = ""
  · rw [if_pos hspace] at h
    cases h
    exact .blankSpace hspace
  rw [if_neg hspace] at h
  cases henums : checkTypes checkEnum EnumDecl.name [] file.enums with
  | error other =>
      rw [henums] at h
      cases h
      rcases exists_of_checkTypes henum List.nodup_nil henums with
        ⟨e, he, hcheck⟩ | ⟨i, j, name, hname, hrepeats, rfl⟩
      · exact .ofEnum he (breaks_of_checkEnum hcheck)
      · exact .typeAgain hname (hrepeats.append _)
  | ok names =>
      simp only [henums] at h
      obtain ⟨-, hfresh, rfl⟩ := (checkTypes_eq_ok_iff ..).mp henums
      rw [fresh_nil_left_iff] at hfresh
      rw [List.nil_append] at h
      cases hclasses : checkTypes checkClass ClassDecl.name (file.enums.map EnumDecl.name)
          file.classes with
      | error other =>
          rw [hclasses] at h
          cases h
          rcases exists_of_checkTypes hclass hfresh hclasses with
            ⟨c, hc, hcheck⟩ | ⟨i, j, name, hname, hrepeats, rfl⟩
          · exact .ofClass hc (breaks_of_checkClass hcheck)
          · exact .typeAgain hname hrepeats
      | ok all =>
          simp only [hclasses] at h
          obtain ⟨-, hnew, -⟩ := (checkTypes_eq_ok_iff ..).mp hclasses
          exact breaks_of_checkBases (nodup_append_iff_fresh.mpr ⟨hfresh, hnew⟩) h

end ModelFile

end SdkHeaders
