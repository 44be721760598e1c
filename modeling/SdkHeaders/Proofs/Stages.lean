import SdkHeaders.Proofs.UniqueNames

/-!
# Stages of generation

The descriptors, the entities, the files and the preview of a model are derived one from the
other.  Only the check of names can fail, so that a model passes all stages or fails in all of
them alike.

Main results:

- Theorem `Descriptor.exists_render`: a descriptor has a header, called and used as it says.
- Theorems `Model.stages_of_descriptors` and `Model.stages_of_clash`: what the check of names
  comes to decides the outcome of every stage.
- Theorem `Model.stages_agree`: every model passes all stages or fails in all of them alike.
-/

namespace SdkHeaders

open Header

variable {setting : Setting}

/-- A descriptor has a header, which declares the name of the descriptor in its role. -/
theorem Descriptor.exists_render (setting : Setting) (d : Descriptor) :
    ∃ e, d.render setting = .ok e ∧
      e.name = setting.target.naming.descriptorName d ∧ e.role = d.role := by
  obtain ⟨e, he⟩ := d.render_isOk setting
  obtain ⟨names, hrendered⟩ := render_eq_ok_iff.mp he
  exact ⟨e, he, hrendered.spec.1, hrendered.spec.2.1⟩

namespace Model

/-- Items are listed for descriptors: each entity has the name and the role of its descriptor, and
the file and the preview of the entity have the name of its header. -/
structure Listed (setting : Setting) (ds : List Descriptor) (es : List Entity)
    (fs : List (String × String)) (ps : List PreviewFile) : Prop where
  entities : List.Forall₂
    (fun d e => e.name = setting.target.naming.descriptorName d ∧ e.role = d.role) ds es
  files : List.Forall₂ (fun d file =>
    file.1 = setting.target.headerFile (setting.target.naming.descriptorName d)) ds fs
  previews : List.Forall₂ (fun d p =>
    p.path = setting.target.headerFile (setting.target.naming.descriptorName d)) ds ps

/-- A model has a preview of each of its files, in order. -/
theorem preview_eq_ok_iff {model : Model} {ps : List PreviewFile} :
    model.preview setting = .ok ps ↔
      ∃ fs, model.files setting = .ok fs ∧ ps = fs.map fun file => ⟨file.1, file.2⟩ := by
  unfold preview
  cases model.files setting with
  | error e => simp [Bind.bind, Except.bind]
  | ok fs => simp [Bind.bind, Except.bind, pure, Except.pure, eq_comm]

/-- If the names can stand side by side, the model passes all stages with one item for each
descriptor, in order. -/
theorem stages_of_descriptors {model : Model} {ds : List Descriptor}
    (h : model.descriptors setting = .ok ds) :
    ∃ es fs ps, model.entities setting = .ok es ∧ model.files setting = .ok fs ∧
      model.preview setting = .ok ps ∧ Listed setting ds es fs ps := by
  obtain ⟨es, hes⟩ := exists_entities h
  have hfs := files_eq_ok_iff.mpr ⟨es, hes, rfl⟩
  have hps := preview_eq_ok_iff.mpr ⟨_, hfs, rfl⟩
  have hlisted : List.Forall₂
      (fun d e => e.name = setting.target.naming.descriptorName d ∧ e.role = d.role) ds es := by
    obtain ⟨ds', hds', hrender⟩ := entities_eq_ok_iff.mp hes
    rw [h] at hds'
    cases hds'
    refine hrender.imp fun d e hde => ?_
    obtain ⟨e', he', hspec⟩ := d.exists_render setting
    rw [hde] at he'
    cases he'
    exact hspec
  refine ⟨es, _, _, hes, hfs, hps, hlisted, ?_, ?_⟩
  · rw [List.forall₂_map_right_iff]
    exact hlisted.imp fun d e hde => by rw [hde.1]
  · rw [List.map_map, List.forall₂_map_right_iff]
    exact hlisted.imp fun d e hde => by rw [Function.comp_apply, hde.1]

/-- If the names clash, the model fails in all stages with the same error. -/
theorem stages_of_clash {model : Model} {error : DerivationError}
    (h : model.descriptors setting = .error error) :
    model.entities setting = .error error ∧ model.files setting = .error error ∧
      model.preview setting = .error error := by
  have hentities : model.entities setting = .error error := by
    rw [entities, h]
    rfl
  have hfiles : model.files setting = .error error := by
    rw [files, hentities]
    rfl
  have hpreview : model.preview setting = .error error := by
    rw [preview, hfiles]
    rfl
  exact ⟨hentities, hfiles, hpreview⟩

/-- Descriptors are refused only for a clash of their names. -/
theorem exists_duplicate_of_descriptors {model : Model} {error : DerivationError}
    (h : model.descriptors setting = .error error) :
    ∃ name first second, error = .duplicateName name first second := by
  obtain ⟨ds, hds⟩ := model.exists_bind
  have hunique : checkUnique setting.target.naming setting.target.frameworkTypes ds =
      .error error := by
    unfold descriptors at h
    cases hcheck : checkUnique setting.target.naming setting.target.frameworkTypes ds with
    | ok _ => simp [hds, hcheck, Bind.bind, Except.bind, pure, Except.pure] at h
    | error other => simpa [hds, hcheck, Bind.bind, Except.bind] using h
  obtain ⟨-, second, -, first, -, -, -, -, herror, -⟩ := exists_clash_of_checkUnique hunique
  exact ⟨_, first, second, herror⟩

/-- Every model has descriptors, and every descriptor that can be made has a header.  Either the
model passes all stages with one item for each of its descriptors, in order, or it fails in all
stages with the same clash of names. -/
theorem stages_agree (setting : Setting) (model : Model) :
    ∃ bound, model.bind = .ok bound ∧
      (∀ element role d, Descriptor.new element role = .ok d →
        ∃ e, d.render setting = .ok e ∧
          e.name = setting.target.naming.descriptorName d ∧ e.role = role) ∧
      ((∃ es fs ps, model.descriptors setting = .ok bound ∧ model.entities setting = .ok es ∧
          model.files setting = .ok fs ∧ model.preview setting = .ok ps ∧
            Listed setting bound es fs ps) ∨
        ∃ name first second,
          model.descriptors setting = .error (.duplicateName name first second) ∧
            model.entities setting = .error (.duplicateName name first second) ∧
              model.files setting = .error (.duplicateName name first second) ∧
                model.preview setting = .error (.duplicateName name first second)) := by
  obtain ⟨bound, hbound⟩ := model.exists_bind
  refine ⟨bound, hbound, ?_, ?_⟩
  · intro element role d hd
    obtain ⟨-, rfl⟩ := Descriptor.new_eq_ok_iff.mp hd
    exact d.exists_render setting
  · cases hds : model.descriptors setting with
    | ok ds =>
        obtain ⟨hbind, -⟩ := descriptors_eq_ok_iff.mp hds
        rw [hbound] at hbind
        cases hbind
        obtain ⟨es, fs, ps, hes, hfs, hps, hlisted⟩ := stages_of_descriptors hds
        exact Or.inl ⟨es, fs, ps, rfl, hes, hfs, hps, hlisted⟩
    | error error =>
        obtain ⟨name, first, second, rfl⟩ := exists_duplicate_of_descriptors hds
        exact Or.inr ⟨name, first, second, rfl, stages_of_clash hds⟩

end Model

end SdkHeaders
