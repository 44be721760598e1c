import Mathlib.Logic.Relation
import SdkHeaders.Proofs.Includes
import SdkHeaders.Proofs.SelfContained
import SdkHeaders.Proofs.Uses

/-!
# Cycles of includes

Which headers of a model include each other in a cycle.  A header never includes itself, and
following the roles of one element comes to an end, so that only the references of the model can
lead back to where they started.

Main results:

- Relation `Model.Includes` says that a generated header includes another one.
- Relation `Model.Leads` follows a reference of the model, perhaps after some roles of the same
  element.
- Theorem `Model.include_cycle_iff`: headers include each other in a cycle exactly if references
  of the model lead from a declaration back to it.
- Theorem `folderModel_cycle`: there are models in which they do.
-/

namespace SdkHeaders

open Header Relation

/-! ## Cycles of two kinds of steps -/

section Steps

variable {α : Type} {descend jump : α → α → Prop} {height : α → Nat}

theorem not_transGen_of_height (hheight : ∀ a b, descend a b → height b < height a) (a : α) :
    ¬ TransGen descend a a := by
  have hlt : ∀ b, TransGen descend a b → height b < height a := by
    intro b h
    induction h with
    | single h => exact hheight _ _ h
    | tail _ h ih => exact (hheight _ _ h).trans ih
  exact fun h => (hlt a h).false

/-- A path that descends and jumps either never jumps, or it descends after its last jump. -/
theorem descends_or_jumps {a b : α} (h : TransGen (fun a b => descend a b ∨ jump a b) a b) :
    TransGen descend a b ∨
      ∃ c, TransGen (fun a c => ∃ b, ReflTransGen descend a b ∧ jump b c) a c ∧
        ReflTransGen descend c b := by
  induction h with
  | single h =>
      rcases h with h | h
      · exact .inl (.single h)
      · exact .inr ⟨_, .single ⟨_, .refl, h⟩, .refl⟩
  | tail _ h ih =>
      rcases ih with ih | ⟨c, hc, ih⟩ <;> rcases h with h | h
      · exact .inl (ih.tail h)
      · exact .inr ⟨_, .single ⟨_, ih.to_reflTransGen, h⟩, .refl⟩
      · exact .inr ⟨c, hc, ih.tail h⟩
      · exact .inr ⟨_, hc.tail ⟨_, ih, h⟩, .refl⟩

/-- If descending comes to an end, then descending and jumping leads back to where it started
exactly if jumps do, each of them after some descent. -/
theorem exists_cycle_iff (hheight : ∀ a b, descend a b → height b < height a) :
    (∃ a, TransGen (fun a b => descend a b ∨ jump a b) a a) ↔
      ∃ a, TransGen (fun a c => ∃ b, ReflTransGen descend a b ∧ jump b c) a a := by
  constructor
  · rintro ⟨a, h⟩
    rcases descends_or_jumps h with h | ⟨c, hc, hdescend⟩
    · exact absurd h (not_transGen_of_height hheight a)
    · -- The cycle starts anew after its last jump, so that the last descent comes first.
      obtain ⟨d, ⟨b, hb, hjump⟩, hrest⟩ := TransGen.head'_iff.mp hc
      exact ⟨c, .head' ⟨b, hdescend.trans hb, hjump⟩ hrest⟩
  · rintro ⟨a, h⟩
    refine ⟨a, TransGen.closed (fun a c hac => ?_) a a h⟩
    obtain ⟨b, hb, hjump⟩ := hac
    exact .tail' (ReflTransGen.mono (fun _ _ => .inl) a b hb) (.inr hjump)

end Steps

/-! ## Includes -/

/-- The name of the declaration of an element in a role. -/
def Target.nameOf (target : Target) (binding : Element × Role) : String :=
  target.naming.roleName binding.1 binding.2

namespace Model

/-- The header of a name includes the generated header of another name. -/
def Includes (target : Target) (es : List Entity) (x y : String) : Prop :=
  ∃ e ∈ es, e.name = x ∧ target.headerFile y ∈ (e.includes target).user.toList ∧
    y ∈ es.map Entity.name

instance (target : Target) (es : List Entity) (x y : String) :
    Decidable (Includes target es x y) :=
  inferInstanceAs (Decidable (∃ e ∈ es, _))

/-- A declaration uses that of the same element in another role. -/
def UsesOwn (model : Model) (a b : Element × Role) : Prop :=
  a ∈ model.bindings ∧ b.1 = a.1 ∧ b.2 ∈ a.2.uses

/-- A declaration uses another one to which the model refers. -/
def UsesByReference (target : Target) (model : Model) (a b : Element × Role) : Prop :=
  a ∈ model.bindings ∧ b ∈ model.bindings ∧ a ≠ b ∧
    ModelReference target a.1 a.2 (target.nameOf b)

/-- A declaration leads to another one by a reference of the model.  The reference may be that of
a declaration of the same element that it uses, directly or by way of others. -/
def Leads (target : Target) (model : Model) (a c : Element × Role) : Prop :=
  ∃ b, ReflTransGen model.UsesOwn a b ∧ model.UsesByReference target b c

theorem UsesOwn.height_lt {model : Model} (a b : Element × Role) (h : model.UsesOwn a b) :
    b.2.height < a.2.height :=
  Role.height_lt h.2.2

section Headers

variable {model : Model} {serviceUrl : String} {ds : List Descriptor} {es : List Entity}

/-- The header of a declaration includes that of another one if and only if it uses the name of
this declaration. -/
theorem headerFile_mem_includes_iff (hnamed : model.Named)
    (hds : model.descriptors (standardSetting serviceUrl) = .ok ds) {a b : Element × Role}
    (ha : a ∈ model.bindings) (hb : b ∈ model.bindings) {e : Entity} {names : List TypeName}
    (hrendered : Rendered (standardSetting serviceUrl) a.1 a.2 names e) :
    Target.standard.headerFile (Target.standard.nameOf b) ∈ (e.includes .standard).user.toList ↔
      Uses .standard a.1 a.2 (Target.standard.nameOf b) ∧ a ≠ b := by
  have hframework : Target.standard.nameOf b ∉ Cpp.frameworkTypes :=
    not_mem_frameworkTypes_of_declares hds ⟨b.1, b.2, hb, rfl⟩
  have hempty : Target.standard.nameOf b ≠ "" := Cpp.roleName_ne_empty hnamed hb
  obtain ⟨hname, -, hdependencies⟩ := hrendered.spec
  have hdistinct : Target.standard.nameOf b ≠ e.name ↔ a ≠ b := by
    rw [hname]
    exact not_congr ⟨fun h => (eq_of_roleName_eq hds hb ha h).symm, fun h => h ▸ rfl⟩
  rw [Entity.includes, Dependencies.mem_user_includes]
  simp only [(headerFile_injective Target.standard).eq_iff, exists_eq_right]
  rw [hdependencies, Dependencies.mem_user_foldl_add, hrendered.mem_iff_uses hframework]
  simp only [Dependencies.new, Text.NameSet.empty, List.not_mem_nil, or_false, hempty,
    ne_eq, not_false_eq_true, true_and]
  exact and_congr_right fun _ => hdistinct

/-- A declaration uses the name of another one as one of the same element or by a reference. -/
theorem uses_nameOf_iff (hds : model.descriptors (standardSetting serviceUrl) = .ok ds)
    {a b : Element × Role} (ha : a ∈ model.bindings) (hb : b ∈ model.bindings) :
    Uses .standard a.1 a.2 (Target.standard.nameOf b) ∧ a ≠ b ↔
      model.UsesOwn a b ∨ model.UsesByReference .standard a b := by
  constructor
  · rintro ⟨⟨other, hother, hname⟩ | hreference, hne⟩
    · obtain rfl : b = (a.1, other) :=
        eq_of_roleName_eq hds hb (uses_mem_bindings ha hother) hname
      exact .inl ⟨ha, rfl, hother⟩
    · exact .inr ⟨ha, hb, hne, hreference⟩
  · rintro (⟨-, helement, hother⟩ | ⟨-, -, hne, hreference⟩)
    · refine ⟨.inl ⟨b.2, hother, helement ▸ rfl⟩, ?_⟩
      rintro rfl
      exact (Role.height_lt hother).false
    · exact ⟨.inr hreference, hne⟩

/-- A generated header includes exactly the generated headers that its declaration uses. -/
theorem includes_iff (hnamed : model.Named)
    (hes : model.entities (standardSetting serviceUrl) = .ok es)
    (hds : model.descriptors (standardSetting serviceUrl) = .ok ds) {a b : Element × Role}
    (ha : a ∈ model.bindings) (hb : b ∈ model.bindings) :
    Includes .standard es (Target.standard.nameOf a) (Target.standard.nameOf b) ↔
      model.UsesOwn a b ∨ model.UsesByReference .standard a b := by
  rw [← uses_nameOf_iff hds ha hb]
  constructor
  · rintro ⟨e, he, hname, hheader, -⟩
    obtain ⟨element, role, names, hmem, hrendered⟩ := exists_rendered hes he
    obtain rfl : (element, role) = a :=
      eq_of_roleName_eq hds hmem ha (hrendered.spec.1.symm.trans hname)
    exact (headerFile_mem_includes_iff hnamed hds ha hb hrendered).mp hheader
  · intro huses
    obtain ⟨e, he, names, hrendered⟩ := exists_rendered_of_binding hes ha
    have hgenerated : Target.standard.nameOf b ∈ es.map Entity.name :=
      (mem_names_entities hes).mpr ⟨b.1, b.2, hb, rfl⟩
    exact ⟨e, he, hrendered.spec.1,
      (headerFile_mem_includes_iff hnamed hds ha hb hrendered).mpr huses, hgenerated⟩

/-- No header includes itself. -/
theorem not_includes_self (hes : model.entities (standardSetting serviceUrl) = .ok es)
    (x : String) : ¬ Includes .standard es x x := by
  rintro ⟨e, he, rfl, hheader, -⟩
  obtain ⟨element, role, names, -, hrendered⟩ := exists_rendered hes he
  obtain ⟨-, -, hdependencies⟩ := hrendered.spec
  obtain ⟨y, hy, hfile⟩ := Dependencies.mem_user_includes.mp hheader
  obtain rfl := headerFile_injective _ hfile
  rw [hdependencies, Dependencies.mem_user_foldl_add] at hy
  simp [Dependencies.new, Text.NameSet.empty] at hy

/-- The declarations along a path of includes. -/
theorem exists_path_of_includes (hnamed : model.Named)
    (hes : model.entities (standardSetting serviceUrl) = .ok es)
    (hds : model.descriptors (standardSetting serviceUrl) = .ok ds) {x y : String}
    (h : TransGen (Includes .standard es) x y) :
    ∃ a b, a ∈ model.bindings ∧ b ∈ model.bindings ∧ Target.standard.nameOf a = x ∧
      Target.standard.nameOf b = y ∧
        TransGen (fun a b => model.UsesOwn a b ∨ model.UsesByReference .standard a b) a b := by
  have hends : ∀ {x y}, Includes .standard es x y →
      ∃ a b, a ∈ model.bindings ∧ b ∈ model.bindings ∧ Target.standard.nameOf a = x ∧
        Target.standard.nameOf b = y := by
    rintro x y ⟨e, he, rfl, -, hy⟩
    obtain ⟨element, role, ha, hx⟩ := (mem_names_entities hes).mp (List.mem_map_of_mem he)
    obtain ⟨element', role', hb, hy⟩ := (mem_names_entities hes).mp hy
    exact ⟨(element, role), (element', role'), ha, hb, hx, hy⟩
  induction h with
  | single h =>
      obtain ⟨a, b, ha, hb, rfl, rfl⟩ := hends h
      exact ⟨a, b, ha, hb, rfl, rfl, .single ((includes_iff hnamed hes hds ha hb).mp h)⟩
  | tail _ h ih =>
      obtain ⟨a, b, ha, hb, rfl, hname, hpath⟩ := ih
      obtain ⟨b', c, hb', hc, rfl, rfl⟩ := hends h
      obtain rfl := eq_of_roleName_eq hds hb hb' hname
      exact ⟨a, c, ha, hc, rfl, rfl, hpath.tail ((includes_iff hnamed hes hds hb hc).mp h)⟩

/-- In a loaded model whose names can stand side by side, no header includes itself, and headers
include each other in a cycle exactly if references of the model lead from a declaration back to
it. -/
theorem include_cycle_iff {file : SourceFile} {format : Format}
    (hload : file.load format = .ok model)
    (hds : model.descriptors (standardSetting serviceUrl) = .ok ds) :
    ∃ es, model.entities (standardSetting serviceUrl) = .ok es ∧
      (∀ x, ¬ Includes .standard es x x) ∧
        ((∃ x, TransGen (Includes .standard es) x x) ↔
          ∃ a, TransGen (model.Leads .standard) a a) := by
  have hnamed := SourceFile.named_of_load hload
  obtain ⟨es, hes⟩ := exists_entities hds
  refine ⟨es, hes, not_includes_self hes, ?_⟩
  have hsteps : (∃ x, TransGen (Includes .standard es) x x) ↔
      ∃ a, TransGen (fun a b => model.UsesOwn a b ∨ model.UsesByReference .standard a b) a a := by
    constructor
    · rintro ⟨x, h⟩
      obtain ⟨a, b, ha, hb, hx, hy, hpath⟩ := exists_path_of_includes hnamed hes hds h
      obtain rfl := eq_of_roleName_eq hds ha hb (hx.trans hy.symm)
      exact ⟨a, hpath⟩
    · rintro ⟨a, h⟩
      refine ⟨_, h.lift Target.standard.nameOf fun b c hstep => ?_⟩
      have hmem : b ∈ model.bindings ∧ c ∈ model.bindings := by
        rcases hstep with ⟨hb, helement, hother⟩ | ⟨hb, hc, -⟩
        · refine ⟨hb, ?_⟩
          rw [← Prod.mk.eta (p := c), helement]
          exact uses_mem_bindings hb hother
        · exact ⟨hb, hc⟩
      exact (includes_iff hnamed hes hds hmem.1 hmem.2).mpr hstep
  exact hsteps.trans (exists_cycle_iff UsesOwn.height_lt)

end Headers

end Model

/-! ## A model with a cycle -/

/-- A document about folders on a drive whose root is a folder. -/
def folderFile : SourceFile where
  name := "model.json"
  text :=
    "[\"demo\", [], [[\"folder\", \"complex\", null, [[\"drive\", \"drive\"]]]," ++
      " [\"drive\", \"complex\", null, [[\"root\", \"folder\"]]]]]"

/-- The model of folders on a drive. -/
def folderModel : Model :=
  .ofFile
    { space := "demo"
      enums := []
      classes :=
        [⟨"folder", .complex, none, [⟨"drive", "drive", false, false, none, ""⟩]⟩,
          ⟨"drive", .complex, none, [⟨"root", "folder", false, false, none, ""⟩]⟩] }

/-- The headers of folders and drives include each other in a cycle exactly if references of the
model lead from a declaration back to it. -/
theorem folderModel_cycle_iff :
    folderFile.load .json = .ok folderModel ∧ ∃ ds,
      folderModel.descriptors (Model.standardSetting Model.defaultServiceUrl) = .ok ds ∧
        ∃ es, folderModel.entities (Model.standardSetting Model.defaultServiceUrl) = .ok es ∧
          (∀ x, ¬ Model.Includes .standard es x x) ∧
            ((∃ x, TransGen (Model.Includes .standard es) x x) ↔
              ∃ a, TransGen (folderModel.Leads .standard) a a) := by
  have hload : folderFile.load .json = .ok folderModel := by decide +kernel
  exact ⟨hload, _, rfl, Model.include_cycle_iff hload rfl⟩

/-- The headers of folders and drives include each other. -/
theorem folderModel_cycle :
    folderFile.load .json = .ok folderModel ∧ ∃ ds es,
      folderModel.descriptors (Model.standardSetting Model.defaultServiceUrl) = .ok ds ∧
        folderModel.entities (Model.standardSetting Model.defaultServiceUrl) = .ok es ∧
          ∃ x, TransGen (Model.Includes .standard es) x x := by
  refine ⟨by decide +kernel, _, _, rfl, rfl, "Folder", ?_⟩
  refine .tail (b := "Drive") (.single ?folder) ?drive
  case folder => decide +kernel
  case drive => decide +kernel

end SdkHeaders
