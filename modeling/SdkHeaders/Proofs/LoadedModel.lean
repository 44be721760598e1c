import SdkHeaders.Derive.IntType
import SdkHeaders.Document.Load
import SdkHeaders.Proofs.Validity

/-!
# Loaded models

What a model that has been loaded from a file declares.

Main results:

- Theorems `Model.ofFile_entries` and `Model.ofFile_spec`: the model of a file with distinct names
  has the declarations of the file, in order.
- Theorem `SourceFile.exists_declared_of_load`: a loaded model has the declarations of a valid file.
- Theorem `SourceFile.named_of_load`: in a loaded model no name and no type is empty, and theorems
  `SourceFile.enum_valid_of_load`, `SourceFile.properties_nodup_of_load` and
  `SourceFile.values_of_load` say what else holds of its declarations.
-/

namespace SdkHeaders

/-! ## Values under new names -/

namespace OrderedMap

variable {α : Type}

/-- A value stored under a new name is appended. -/
theorem insert_of_not_mem {map : OrderedMap α} {key : String} (value : α)
    (h : key ∉ map.keys) : map.insert key value = ⟨map.entries ++ [(key, value)]⟩ := by
  obtain ⟨entries⟩ := map
  rw [insert, OrderedMap.mk.injEq]
  induction entries with
  | nil => rfl
  | cons entry rest ih =>
      simp only [keys, List.map_cons, List.mem_cons, not_or] at h
      rw [insertEntry, if_neg fun heq => h.1 heq.symm, ih h.2, List.cons_append]

/-- Values stored one after the other under new names are appended in order. -/
theorem foldl_insert_of_fresh {β : Type} {key : β → String} {value : β → α} {l : List β}
    {map : OrderedMap α} (h : Fresh map.keys (l.map key)) :
    l.foldl (fun m b => m.insert (key b) (value b)) map =
      ⟨map.entries ++ l.map fun b => (key b, value b)⟩ := by
  induction l generalizing map with
  | nil => simp
  | cons first rest ih =>
      rw [List.map_cons, fresh_cons_iff] at h
      obtain ⟨hfirst, hrest⟩ := h
      have hinsert := insert_of_not_mem (value first) hfirst
      have hkeys : (map.insert (key first) (value first)).keys = map.keys ++ [key first] := by
        rw [keys_insert, if_neg hfirst]
      rw [← hkeys] at hrest
      rw [List.foldl_cons, ih hrest, hinsert, List.map_cons, List.append_assoc,
        List.singleton_append]

end OrderedMap

/-! ## The model of a file -/

namespace Model

/-- Adding enumerations stores them by name and changes nothing else. -/
theorem foldl_addEnum (enums : List EnumDecl) (model : Model) :
    enums.foldl addEnum model =
      { model with
        enumMap := enums.foldl (fun map e => map.insert e.name e) model.enumMap } := by
  induction enums generalizing model with
  | nil => rfl
  | cons e rest ih => rw [List.foldl_cons, ih, List.foldl_cons, addEnum]

/-- Adding classes stores them by name as the owners of their properties and changes nothing
else. -/
theorem foldl_addClass (classes : List ClassDecl) (model : Model) :
    classes.foldl addClass model =
      { model with
        classMap :=
          classes.foldl (fun map c => map.insert c.name c.ownProperties) model.classMap } := by
  induction classes generalizing model with
  | nil => rfl
  | cons c rest ih => rw [List.foldl_cons, ih, List.foldl_cons, addClass]

/-- The maps of a file with distinct names have the enumerations and the classes of the file under
their names, in order; the classes own their properties. -/
theorem ofFile_entries {file : ModelFile} (henums : (file.enums.map EnumDecl.name).Nodup)
    (hclasses : (file.classes.map ClassDecl.name).Nodup) :
    (ofFile file).enumMap.entries = file.enums.map (fun e => (e.name, e)) ∧
      (ofFile file).classMap.entries = file.classes.map fun c => (c.name, c.ownProperties) := by
  have hempty : ∀ {α : Type}, (OrderedMap.empty : OrderedMap α).keys = [] := rfl
  rw [ofFile, foldl_addClass, foldl_addEnum]
  simp only [new]
  rw [OrderedMap.foldl_insert_of_fresh (by rwa [hempty, fresh_nil_left_iff]),
    OrderedMap.foldl_insert_of_fresh (by rwa [hempty, fresh_nil_left_iff])]
  simp [OrderedMap.empty]

/-- The model of a file with distinct names has the enumerations and the classes of the file,
in order; the classes own their properties. -/
theorem ofFile_spec {file : ModelFile} (henums : (file.enums.map EnumDecl.name).Nodup)
    (hclasses : (file.classes.map ClassDecl.name).Nodup) :
    (ofFile file).enums = file.enums ∧
      (ofFile file).classes = file.classes.map ClassDecl.ownProperties := by
  obtain ⟨henumEntries, hclassEntries⟩ := ofFile_entries henums hclasses
  rw [enums, classes, OrderedMap.values, OrderedMap.values, henumEntries, hclassEntries]
  simp [Function.comp_def]

/-- No name and no type of a model is empty. -/
structure Named (model : Model) : Prop where
  enums : ∀ e ∈ model.enums, e.name ≠ ""
  classes : ∀ c ∈ model.classes, c.name ≠ ""
  types : ∀ c ∈ model.classes, ∀ p ∈ c.properties, p.type ≠ ""
  bases : ∀ c ∈ model.classes, ∀ b, c.base = some b → b ∈ model.classes.map ClassDecl.name

end Model

/-! ## Loading -/

namespace SourceFile

/-- The enumerations and the classes of a loaded model are those of a valid file that the text
decodes to; the classes own their properties. -/
theorem exists_declared_of_load {file : SourceFile} {format : Format} {model : Model}
    (h : file.load format = .ok model) :
    ∃ declared : ModelFile, file.decode format = some declared ∧ declared.Valid ∧
      model.enums = declared.enums ∧
        model.classes = declared.classes.map ClassDecl.ownProperties := by
  obtain ⟨declared, hdecode, hvalidate, rfl⟩ := load_eq_ok_iff.mp h
  have hvalid := declared.validate_eq_ok_iff.mp hvalidate
  obtain ⟨hnodup, -⟩ := nodup_append_iff_fresh.mp hvalid.types_nodup
  exact ⟨declared, hdecode, hvalid, Model.ofFile_spec hnodup hvalid.classes_nodup⟩

section Loaded

variable {file : SourceFile} {format : Format} {model : Model} (h : file.load format = .ok model)

include h

/-- In a loaded model no name and no type is empty. -/
theorem named_of_load : model.Named := by
  obtain ⟨declared, -, hvalid, henums, hclasses⟩ := exists_declared_of_load h
  have hclass : ∀ c ∈ model.classes, ∃ d ∈ declared.classes, d.ownProperties = c := by
    intro c hc
    rw [hclasses] at hc
    exact List.mem_map.mp hc
  refine ⟨?_, ?_, ?_, ?_⟩
  · rw [henums]
    exact hvalid.enums_named
  · intro c hc
    obtain ⟨d, hd, rfl⟩ := hclass c hc
    exact hvalid.classes_named d hd
  · intro c hc p hp
    obtain ⟨d, hd, rfl⟩ := hclass c hc
    obtain ⟨q, hq, rfl⟩ := List.mem_map.mp hp
    exact (hvalid.classes_valid d hd).properties_typed q hq
  · intro c hc b hb
    obtain ⟨d, hd, rfl⟩ := hclass c hc
    have hnames : model.classes.map ClassDecl.name = declared.classes.map ClassDecl.name := by
      rw [hclasses, List.map_map]
      rfl
    rw [hnames]
    exact hvalid.bases_declared d hd b hb

/-- The enumerations of a loaded model are valid. -/
theorem enum_valid_of_load {e : EnumDecl} (he : e ∈ model.enums) : e.Valid := by
  obtain ⟨declared, -, hvalid, henums, -⟩ := exists_declared_of_load h
  rw [henums] at he
  exact hvalid.enums_valid e he

/-- The properties of a class of a loaded model have distinct names. -/
theorem properties_nodup_of_load {c : ClassDecl} (hc : c ∈ model.classes) :
    (c.properties.map Property.name).Nodup := by
  obtain ⟨declared, -, hvalid, -, hclasses⟩ := exists_declared_of_load h
  rw [hclasses] at hc
  obtain ⟨d, hd, rfl⟩ := List.mem_map.mp hc
  have hnames : d.ownProperties.properties.map Property.name = d.properties.map Property.name := by
    rw [ClassDecl.ownProperties, List.map_map]
    rfl
  rw [hnames]
  exact (hvalid.classes_valid d hd).properties_nodup

/-- The values of the enumerations of a loaded model have signed 64 bits. -/
theorem values_of_load {e : EnumDecl} (he : e ∈ model.enums) :
    ∀ x ∈ e.values, -Int.pow 2 63 ≤ x ∧ x < Int.pow 2 63 := by
  obtain ⟨declared, hdecode, -, henums, -⟩ := exists_declared_of_load h
  obtain ⟨node, -, hnode⟩ := Option.bind_eq_some_iff.mp hdecode
  rw [henums] at he
  intro x hx
  obtain ⟨m, hm, rfl⟩ := List.mem_map.mp hx
  cases hvalue : m.value with
  | none => decide
  | some value => exact Document.value_range_of_decodeFile hnode he hm hvalue

end Loaded

end SourceFile

end SdkHeaders
