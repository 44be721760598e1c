import SdkHeaders.Proofs.Generation
import SdkHeaders.Proofs.HeaderText
import SdkHeaders.Proofs.LoadedModel
import SdkHeaders.Proofs.ReservedWords

/-!
# Enumerators

What the enumerators of an enumeration are called in its header, and which values the language
gives to them: an explicit value as it is written, and otherwise one more than the value before.

Main results:

- Theorem `enumerators_toldApart`: the names of enumerators are those that validation compares, so
  that the enumerators of a loaded model are named and can be told apart.
- Definition `numberFrom` gives the values of enumerators, and theorem `mem_numberFrom_iff` lists
  them.
- Theorem `SourceFile.forall_holds_iff_of_load`: the integer type of an enumeration holds all values
  of its enumerators exactly if counting on from an explicit value, or from the start, nowhere
  passes the greatest value of the type.
- Theorem `levelModel_not_holds`: there are models in which it does.
-/

namespace SdkHeaders

open Header Text

/-! ## Declared enumerators -/

/-- The declaration of an enumeration has an enumerator for each member, in order. -/
theorem EnumDecl.enumerators_dataEntity (target : Target) (e : EnumDecl) :
    (e.dataEntity target).declaration.enumerators = enumeratorEntries target e := by
  by_cases hmembers : e.members = []
  · simp [EnumDecl.dataEntity, Declaration.enumerators, enumeratorEntries, hmembers]
  · simp [EnumDecl.dataEntity, Declaration.enumerators, enumeratorEntries, hmembers,
      Member.enumeratorList]

/-- The enumerators of an enumeration are called by the capitalized names of the members. -/
theorem EnumDecl.enumerators_standard (e : EnumDecl) :
    (e.dataEntity .standard).declaration.enumerators =
      e.members.map fun m => (capitalize m.name, m.value) := by
  rw [enumerators_dataEntity, enumeratorEntries]
  apply List.map_congr_left
  intro m _
  exact congrArg (·, m.value) (Cpp.typeName_eq_capitalize m.name)

/-- The lines of the enumerators follow each other in the text of the header. -/
theorem EnumDecl.enumeratorLines_infix (e : EnumDecl) (space : String) :
    Layout.memberLines Target.standard.indent
        (Member.enumeratorLines (e.dataEntity .standard).declaration.enumerators) <:+:
      lines ((e.dataEntity .standard).fileText .standard space) := by
  rw [enumerators_dataEntity]
  by_cases hmembers : e.members = []
  · have hnone : Layout.memberLines Target.standard.indent
        (Member.enumeratorLines (enumeratorEntries .standard e)) = [] := by
      rw [enumeratorEntries, hmembers]
      rfl
    rw [hnone]
    exact List.nil_infix
  · have hmember : .enumerators (enumeratorEntries .standard e) ∈
        (e.dataEntity .standard).declaration.members := by
      simp [EnumDecl.dataEntity, hmembers]
    exact Entity.memberLines_infix_fileText (by decide) hmember space

/-! ## Names of enumerators -/

/-- Names are not empty and can be told apart. -/
def ToldApart (names : List String) : Prop :=
  (∀ name ∈ names, name ≠ "") ∧ names.Nodup

instance (names : List String) : Decidable (ToldApart names) :=
  inferInstanceAs (Decidable (_ ∧ _))

/-- The members of an enumeration are valid exactly if its enumerators can be told apart. -/
theorem EnumDecl.valid_iff_toldApart (e : EnumDecl) :
    e.Valid ↔ ToldApart ((e.dataEntity .standard).declaration.enumerators.map Prod.fst) := by
  have hnames : (e.dataEntity .standard).declaration.enumerators.map Prod.fst =
      e.members.map fun m => capitalize m.name := by
    rw [enumerators_standard, List.map_map]
    rfl
  rw [hnames, ToldApart]
  constructor
  · intro h
    refine ⟨?_, h.enumerators_nodup⟩
    intro name hname
    obtain ⟨m, hm, rfl⟩ := List.mem_map.mp hname
    rw [ne_eq, capitalize_eq_empty_iff]
    exact h.members_named m hm
  · intro h
    refine ⟨?_, ?_, h.2⟩
    · intro m hm hempty
      apply h.1 _ (List.mem_map_of_mem hm)
      rw [capitalize_eq_empty_iff, hempty]
    · -- Members with one name would have one capitalized name as well.
      have hcapital := h.2
      rw [← Function.comp_def, ← List.map_map] at hcapital
      exact hcapital.of_map

/-- The name of an enumerator is the capitalized name that validation compares.  So an enumeration
passes exactly if its enumerators can be told apart, and the header of an enumeration of a loaded
model declares enumerators that can. -/
theorem enumerators_toldApart (serviceUrl : String) :
    (∀ name, Cpp.naming.enumeratorName name = capitalize name) ∧
      (∀ e, ModelFile.checkEnum e = .ok () ↔ e.name ≠ "" ∧
        ToldApart ((e.dataEntity .standard).declaration.enumerators.map Prod.fst)) ∧
      ∀ (file : SourceFile) (format : Format) (model : Model), file.load format = .ok model →
        ∀ e ∈ model.enums, ∃ entity,
          model.Renders (Model.standardSetting serviceUrl) (.ofEnum e) .dataType entity ∧
            entity.declaration.enumerators =
                e.members.map (fun m => (Cpp.naming.enumeratorName m.name, m.value)) ∧
              ToldApart (entity.declaration.enumerators.map Prod.fst) ∧
                Layout.memberLines Target.standard.indent
                    (Member.enumeratorLines entity.declaration.enumerators) <:+:
                  lines (entity.fileText .standard model.headerSpace) := by
  refine ⟨Cpp.typeName_eq_capitalize, ?_, ?_⟩
  · intro e
    rw [ModelFile.checkEnum_eq_ok_iff, e.valid_iff_toldApart]
  · intro file format model hload e he
    refine ⟨_, Model.renders_enumData (Model.standardSetting serviceUrl) he,
      e.enumerators_dataEntity .standard, ?_, ?_⟩
    · exact e.valid_iff_toldApart.mp (SourceFile.enum_valid_of_load hload he)
    · exact e.enumeratorLines_infix model.headerSpace

example : ModelFile.checkEnum ⟨"letter", false, [⟨"ß", none⟩, ⟨"sS", none⟩]⟩ =
    .error (.sharedEnumerator "letter" "ß" "sS" "SS") := by decide

/-- A document about an enumeration whose members have a letter with two capitals and a reserved
word as names. -/
def letterFile : SourceFile where
  name := "model.json"
  text := "[\"demo\", [[\"letter\", false, [[\"ß\", 7], [\"default\"]]]]]"

/-- The enumeration of letters. -/
def letterEnum : EnumDecl where
  name := "letter"
  flags := false
  members := [⟨"ß", some 7⟩, ⟨"default", none⟩]

/-- The model of letters. -/
def letterModel : Model :=
  (Model.new "demo").addEnum letterEnum

/-- The enumerators of letters can be told apart. -/
theorem letterModel_toldApart :
    letterFile.load .json = .ok letterModel ∧ letterEnum ∈ letterModel.enums ∧ ∃ entity,
      letterModel.Renders (Model.standardSetting Model.defaultServiceUrl) (.ofEnum letterEnum)
          .dataType entity ∧
        entity.declaration.enumerators = [("SS", some 7), ("Default", none)] ∧
          ToldApart (entity.declaration.enumerators.map Prod.fst) := by
  have hload : letterFile.load .json = .ok letterModel := by decide +kernel
  have hmem : letterEnum ∈ letterModel.enums := List.mem_singleton_self letterEnum
  obtain ⟨-, -, hloaded⟩ := enumerators_toldApart Model.defaultServiceUrl
  obtain ⟨entity, hrenders, henumerators, happart, -⟩ := hloaded _ _ _ hload letterEnum hmem
  refine ⟨hload, hmem, entity, hrenders, ?_, happart⟩
  rw [henumerators]
  decide +kernel

/-! ## Values of enumerators -/

/-- The values that the language gives to enumerators, some of which are written with a value: the
written one, and otherwise the next one, which is one more than the value before. -/
def numberFrom (next : Int) : List (Option Int) → List Int
  | [] => []
  | written :: rest => written.getD next :: numberFrom (written.getD next + 1) rest

/-- The values that the language gives to the enumerators of a declaration. -/
def Header.Declaration.enumeratorValues (d : Declaration) : List Int :=
  numberFrom 0 (d.enumerators.map Prod.snd)

/-- A value is reached by counting on over enumerators without a written value. -/
inductive Counted (next : Int) (written : List (Option Int)) (x : Int) : Prop
  /-- The count starts at the first enumerator. -/
  | fromStart (n : Nat) (rest : List (Option Int))
      (hsplit : written = List.replicate (n + 1) none ++ rest) (hx : x = next + n)
  /-- The count starts at a written value. -/
  | fromWritten (before : List (Option Int)) (w : Int) (n : Nat) (rest : List (Option Int))
      (hsplit : written = before ++ some w :: (List.replicate n none ++ rest)) (hx : x = w + n)

theorem counted_of_mem {next x : Int} {written : List (Option Int)}
    (h : x ∈ numberFrom next written) : Counted next written x := by
  induction written generalizing next with
  | nil => cases h
  | cons first tail ih =>
      rw [numberFrom] at h
      rcases List.mem_cons.mp h with hfirst | htail
      · cases first with
        | none => exact .fromStart 0 tail rfl (by simpa using hfirst)
        | some w => exact .fromWritten [] w 0 tail rfl (by simpa using hfirst)
      · cases ih htail with
        | fromStart n rest hsplit hx =>
            -- The count over the tail goes on from the first enumerator.
            cases first with
            | none =>
                refine .fromStart (n + 1) rest ?_ ?_
                · rw [hsplit, List.replicate_succ, List.replicate_succ]
                  rfl
                · rw [hx, Option.getD_none]
                  omega
            | some w =>
                refine .fromWritten [] w (n + 1) rest ?_ ?_
                · rw [hsplit]
                  rfl
                · rw [hx, Option.getD_some]
                  omega
        | fromWritten before w n rest hsplit hx =>
            refine .fromWritten (first :: before) w n rest ?_ hx
            rw [hsplit, List.cons_append]

theorem mem_of_counted {next x : Int} {written : List (Option Int)}
    (h : Counted next written x) : x ∈ numberFrom next written := by
  induction written generalizing next with
  | nil =>
      cases h with
      | fromStart n rest hsplit hx => simp [List.replicate_succ] at hsplit
      | fromWritten before w n rest hsplit hx => simp at hsplit
  | cons first tail ih =>
      rw [numberFrom, List.mem_cons]
      cases h with
      | fromStart n rest hsplit hx =>
          rw [List.replicate_succ, List.cons_append] at hsplit
          obtain ⟨rfl, htail⟩ := List.cons.inj hsplit
          cases n with
          | zero => exact .inl (by simpa using hx)
          | succ n =>
              refine .inr (ih (.fromStart n rest htail ?_))
              rw [hx, Option.getD_none]
              omega
      | fromWritten before w n rest hsplit hx =>
          cases before with
          | nil =>
              obtain ⟨rfl, htail⟩ := List.cons.inj hsplit
              cases n with
              | zero => exact .inl (by simpa using hx)
              | succ n =>
                  refine .inr (ih (.fromStart n rest htail ?_))
                  rw [hx, Option.getD_some]
                  omega
          | cons other before =>
              obtain ⟨-, htail⟩ := List.cons.inj hsplit
              exact .inr (ih (.fromWritten before w n rest htail hx))

/-- The values of enumerators are those that are reached by counting on. -/
theorem mem_numberFrom_iff {next x : Int} {written : List (Option Int)} :
    x ∈ numberFrom next written ↔ Counted next written x :=
  ⟨counted_of_mem, mem_of_counted⟩

/-! ## Values of the integer type -/

/-- Counting on over enumerators without a written value nowhere passes a number: neither over those
at the start, the first of which has the value zero, nor over those behind a written value. -/
structure CountsWithin (greatest : Int) (written : List (Option Int)) : Prop where
  fromStart : ∀ (n : Nat) rest, written = List.replicate (n + 1) none ++ rest → n ≤ greatest
  fromWritten : ∀ before w (n : Nat) rest,
    written = before ++ some w :: (List.replicate n none ++ rest) → w + n ≤ greatest

section Range

variable {t : IntType} {written : List (Option Int)} (hwritten : ∀ w, some w ∈ written → t.Holds w)

include hwritten

/-- Counting on never falls below the least value of a type that holds the written values. -/
theorem least_le_of_mem_numberFrom {x : Int} (h : x ∈ numberFrom 0 written) : t.least ≤ x := by
  cases mem_numberFrom_iff.mp h with
  | fromStart n rest hsplit hx =>
      have hzero := t.holds_zero.1
      omega
  | fromWritten before w n rest hsplit hx =>
      have hw : some w ∈ written := by
        rw [hsplit]
        exact List.mem_append_right before List.mem_cons_self
      have hleast := (hwritten w hw).1
      omega

/-- A type that holds the written values holds all values exactly if counting on nowhere passes its
greatest value. -/
theorem forall_holds_iff_countsWithin :
    (∀ x ∈ numberFrom 0 written, t.Holds x) ↔ CountsWithin t.greatest written := by
  constructor
  · intro h
    constructor
    · intro n rest hsplit
      have hmem := mem_numberFrom_iff.mpr (.fromStart n rest hsplit (Int.zero_add n).symm)
      exact (h n hmem).2
    · intro before w n rest hsplit
      exact (h _ (mem_numberFrom_iff.mpr (.fromWritten before w n rest hsplit rfl))).2
  · intro h x hx
    refine ⟨least_le_of_mem_numberFrom hwritten hx, ?_⟩
    cases mem_numberFrom_iff.mp hx with
    | fromStart n rest hsplit hx =>
        have hstart := h.fromStart n rest hsplit
        omega
    | fromWritten before w n rest hsplit hx =>
        rw [hx]
        exact h.fromWritten before w n rest hsplit

end Range

/-- The header of an enumeration of a loaded model declares its enumerators over the selected
integer type, with the values of the members.  The type holds every written value, and no value lies
below it.  It holds all values exactly if counting on from a written value, or from the start,
nowhere passes its greatest value. -/
theorem SourceFile.forall_holds_iff_of_load {file : SourceFile} {format : Format} {model : Model}
    (hload : file.load format = .ok model) (serviceUrl : String) {e : EnumDecl}
    (he : e ∈ model.enums) :
    ∃ entity, model.Renders (Model.standardSetting serviceUrl) (.ofEnum e) .dataType entity ∧
      entity.declaration.form = .ofEnum (.system e.intType.spelling) ∧
        entity.declaration.enumerators.map Prod.snd = e.members.map EnumMember.value ∧
          Layout.memberLines Target.standard.indent
              (Member.enumeratorLines entity.declaration.enumerators) <:+:
            lines (entity.fileText .standard model.headerSpace) ∧
          (∀ m ∈ e.members, ∀ w, m.value = some w → e.intType.Holds w) ∧
            (∀ x ∈ entity.declaration.enumeratorValues, e.intType.least ≤ x) ∧
              ((∀ x ∈ entity.declaration.enumeratorValues, e.intType.Holds x) ↔
                CountsWithin e.intType.greatest (e.members.map EnumMember.value)) := by
  have hvalues : (e.dataEntity .standard).declaration.enumerators.map Prod.snd =
      e.members.map EnumMember.value := by
    rw [e.enumerators_dataEntity, enumeratorEntries, List.map_map]
    rfl
  have hmember : ∀ m ∈ e.members, ∀ w, m.value = some w → e.intType.Holds w := by
    intro m hm w hw
    apply EnumDecl.intType_holds (SourceFile.values_of_load hload he)
    rw [EnumDecl.values, List.mem_map]
    exact ⟨m, hm, by rw [hw, Option.getD_some]⟩
  have hwritten : ∀ w, some w ∈ e.members.map EnumMember.value → e.intType.Holds w := by
    intro w hw
    obtain ⟨m, hm, hmw⟩ := List.mem_map.mp hw
    exact hmember m hm w hmw
  have hnumbers : (e.dataEntity .standard).declaration.enumeratorValues =
      numberFrom 0 (e.members.map EnumMember.value) := by
    rw [Declaration.enumeratorValues, hvalues]
  refine ⟨e.dataEntity .standard, Model.renders_enumData (Model.standardSetting serviceUrl) he, rfl,
    hvalues, e.enumeratorLines_infix model.headerSpace, hmember, ?_⟩
  rw [hnumbers]
  exact ⟨fun x hx => least_le_of_mem_numberFrom hwritten hx,
    forall_holds_iff_countsWithin hwritten⟩

/-- A document about an enumeration with a member that counts on from the greatest value of a
byte. -/
def levelFile : SourceFile where
  name := "model.json"
  text := "[\"demo\", [[\"level\", false, [[\"high\", 255], [\"higher\"]]]]]"

/-- The enumeration of levels. -/
def levelEnum : EnumDecl where
  name := "level"
  flags := false
  members := [⟨"high", some 255⟩, ⟨"higher", none⟩]

/-- The model of levels. -/
def levelModel : Model :=
  (Model.new "demo").addEnum levelEnum

theorem load_levelFile : levelFile.load .json = .ok levelModel := by
  decide +kernel

/-- Counting on passes the greatest value of a byte, and the type of levels does not hold all
values. -/
theorem levelModel_holds_iff :
    levelFile.load .json = .ok levelModel ∧ levelEnum ∈ levelModel.enums ∧ ∃ entity,
      levelModel.Renders (Model.standardSetting Model.defaultServiceUrl) (.ofEnum levelEnum)
          .dataType entity ∧
        (∀ x ∈ entity.declaration.enumeratorValues, levelEnum.intType.least ≤ x) ∧
          ¬ CountsWithin levelEnum.intType.greatest (levelEnum.members.map EnumMember.value) ∧
            ¬ ∀ x ∈ entity.declaration.enumeratorValues, levelEnum.intType.Holds x := by
  have hmem : levelEnum ∈ levelModel.enums := List.mem_singleton_self levelEnum
  obtain ⟨entity, hrenders, -, -, -, -, hleast, hiff⟩ :=
    SourceFile.forall_holds_iff_of_load load_levelFile Model.defaultServiceUrl hmem
  have hcount : ¬ CountsWithin levelEnum.intType.greatest
      (levelEnum.members.map EnumMember.value) := by
    intro h
    have hpassed : ¬ (255 + (1 : Nat) : Int) ≤ levelEnum.intType.greatest := by decide
    exact hpassed (h.fromWritten [] 255 1 [] rfl)
  exact ⟨load_levelFile, hmem, entity, hrenders, hleast, hcount, fun h => hcount (hiff.mp h)⟩

/-- The second level counts on from the greatest value of a byte, over which the levels are
declared. -/
theorem levelModel_not_holds :
    levelFile.load .json = .ok levelModel ∧ levelEnum ∈ levelModel.enums ∧ ∃ entity,
      levelModel.Renders (Model.standardSetting Model.defaultServiceUrl) (.ofEnum levelEnum)
          .dataType entity ∧
        entity.declaration.signature = "enum class Level : std::uint8_t" ∧
          entity.declaration.enumerators = [("High", some 255), ("Higher", none)] ∧
            256 ∈ entity.declaration.enumeratorValues ∧ ¬ levelEnum.intType.Holds 256 := by
  refine ⟨load_levelFile, List.mem_singleton_self levelEnum,
    levelEnum.dataEntity .standard, ?_, ?_, ?_, ?_, ?_⟩
  · exact Model.renders_enumData _ (List.mem_singleton_self levelEnum)
  · decide +kernel
  · decide +kernel
  · decide +kernel
  · decide

end SdkHeaders
