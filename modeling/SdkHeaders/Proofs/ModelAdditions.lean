import SdkHeaders.Proofs.LoadedModel

/-!
# Additions to models

What a model holds after enumerations and classes have been added to it, in any order and with any
names, and what it holds when it has been loaded from a file.

Main results:

- Structure `OrderedMap.Collects` says how a map keeps what has been stored in it, and by theorem
  `OrderedMap.Collects.insert` one insertion goes on with it.
- Theorem `ClassDecl.filledFrom_iff`: a class as the owner of its properties is the class with
  nothing but the owners filled in.
- Theorem `Model.holds_addAll`: the maps of a model keep what has been added to it.
- Theorem `Model.additions_spec` adds that a loaded model has the declarations of its file.
-/

namespace SdkHeaders

/-! ## Insertion into maps -/

namespace OrderedMap

variable {α : Type} {map : OrderedMap α}

/-- Insertion does not repeat a name. -/
theorem nodup_keys_insert (h : map.keys.Nodup) (key : String) (value : α) :
    (map.insert key value).keys.Nodup := by
  rw [keys_insert]
  split
  · exact h
  · next hkey => exact h.append (List.nodup_singleton key) (List.disjoint_singleton.mpr hkey)

/-- If no name is repeated, the entries are what is found under their names. -/
theorem mem_entries_iff (h : map.keys.Nodup) {key : String} {value : α} :
    (key, value) ∈ map.entries ↔ map.get? key = some value := by
  obtain ⟨entries⟩ := map
  unfold get?
  induction entries with
  | nil => simp
  | cons entry rest ih =>
      obtain ⟨name, stored⟩ := entry
      obtain ⟨hname, hrest⟩ := List.nodup_cons.mp h
      by_cases hkey : key = name
      · subst hkey
        have hnot : (key, value) ∉ rest := fun hmem => hname (List.mem_map.mpr ⟨_, hmem, rfl⟩)
        simp [hnot, eq_comm]
      · have hb : (key == name) = false := by simpa using hkey
        simp [List.lookup_cons, hkey, hb, ih hrest]

/-- After an insertion the value is stored under its name, and the other names keep theirs. -/
theorem mem_entries_insert (h : map.keys.Nodup) {key name : String} {value a : α} :
    (name, a) ∈ (map.insert key value).entries ↔
      if name = key then a = value else (name, a) ∈ map.entries := by
  rw [mem_entries_iff (nodup_keys_insert h key value), get?_insert]
  split
  · rw [Option.some.injEq, eq_comm]
  · exact (mem_entries_iff h).symm

/-- A map keeps what has been stored in it one after the other: no name is repeated, every value
has the name that it is stored under, the names are in the order in which they first occur, and
under each name there is what has become of the last that was stored there. -/
structure Collects (map : OrderedMap α) (nameOf : α → String) (becomes : α → α → Prop)
    (added : List α) : Prop where
  nodup : map.keys.Nodup
  named : ∀ entry ∈ map.entries, nameOf entry.2 = entry.1
  keys_eq : map.keys = (added.map nameOf).eraseDups
  mem_entries : ∀ name a, (name, a) ∈ map.entries ↔
    ∃ b, (added.filter (nameOf · = name)).getLast? = some b ∧ becomes b a

variable {nameOf : α → String} {becomes : α → α → Prop} {added : List α}

theorem collects_empty : (empty : OrderedMap α).Collects nameOf becomes [] where
  nodup := List.nodup_nil
  named := List.forall_mem_nil _
  keys_eq := rfl
  mem_entries := by simp [empty]

/-- A map keeps what is stored next. -/
theorem Collects.insert (h : map.Collects nameOf becomes added) {b value : α}
    (hvalue : ∀ a, becomes b a ↔ a = value) (hname : nameOf value = nameOf b) :
    (map.insert (nameOf b) value).Collects nameOf becomes (added ++ [b]) where
  nodup := nodup_keys_insert h.nodup _ _
  named := by
    rintro ⟨name, a⟩ hentry
    rw [mem_entries_insert h.nodup] at hentry
    split at hentry
    · next heq => rw [hentry, hname, heq]
    · exact h.named _ hentry
  keys_eq := by
    rw [keys_insert, h.keys_eq, List.map_append, List.eraseDups_append, List.map_singleton]
    by_cases hmem : nameOf b ∈ added.map nameOf
    · rw [if_pos (List.mem_eraseDups.mpr hmem)]
      simp [List.cons_removeAll, hmem]
    · rw [if_neg (mt List.mem_eraseDups.mp hmem)]
      simp [List.cons_removeAll, List.eraseDups_cons, hmem]
  mem_entries := by
    intro name a
    rw [mem_entries_insert h.nodup, List.filter_append]
    by_cases heq : name = nameOf b
    · simp [heq, hvalue]
    · have hother : [b].filter (nameOf · = name) = [] := by simp [Ne.symm heq]
      rw [if_neg heq, hother, List.append_nil]
      exact h.mem_entries name a

end OrderedMap

/-! ## Owners of properties -/

namespace ClassDecl

/-- The class with the owners of its properties left blank. -/
def withoutOwners (c : ClassDecl) : ClassDecl :=
  { c with properties := c.properties.map fun p => { p with owner := "" } }

/-- A class is another one but for the owners of its properties, and it owns them all. -/
structure FilledFrom (c added : ClassDecl) : Prop where
  same : c.withoutOwners = added.withoutOwners
  owned : ∀ p ∈ c.properties, p.owner = c.name

/-- Owners that are left blank do not matter to the class that fills them in. -/
theorem ownProperties_withoutOwners (c : ClassDecl) :
    c.withoutOwners.ownProperties = c.ownProperties := by
  simp [withoutOwners, ownProperties, Function.comp_def]

theorem withoutOwners_ownProperties (c : ClassDecl) :
    c.ownProperties.withoutOwners = c.withoutOwners := by
  simp [withoutOwners, ownProperties, Function.comp_def]

/-- A class that owns its properties has nothing to fill in. -/
theorem ownProperties_eq_self {c : ClassDecl} (h : ∀ p ∈ c.properties, p.owner = c.name) :
    c.ownProperties = c := by
  have hproperties : (c.properties.map fun p => { p with owner := c.name }) = c.properties := by
    refine (List.map_congr_left fun p hp => ?_).trans (List.map_id c.properties)
    rw [id, ← h p hp]
  rw [ownProperties, hproperties]

/-- A class as the owner of its properties is the class with the owners filled in. -/
theorem filledFrom_iff {c added : ClassDecl} : c.FilledFrom added ↔ c = added.ownProperties := by
  constructor
  · rintro ⟨hsame, howned⟩
    calc
      c = c.ownProperties := (ownProperties_eq_self howned).symm
      _ = c.withoutOwners.ownProperties := c.ownProperties_withoutOwners.symm
      _ = added.withoutOwners.ownProperties := by rw [hsame]
      _ = added.ownProperties := added.ownProperties_withoutOwners
  · rintro rfl
    refine ⟨added.withoutOwners_ownProperties, ?_⟩
    intro p hp
    obtain ⟨q, -, rfl⟩ := List.mem_map.mp hp
    rfl

end ClassDecl

/-! ## Additions to a model -/

namespace Model

/-- What is added to a model at a time. -/
inductive Addition where
  /-- An enumeration. -/
  | ofEnum (e : EnumDecl)
  /-- A class. -/
  | ofClass (c : ClassDecl)
  deriving DecidableEq, Repr

/-- The enumeration that is added, if it is one. -/
def Addition.enum? : Addition → Option EnumDecl
  | ofEnum e => some e
  | ofClass _ => none

/-- The class that is added, if it is one. -/
def Addition.class? : Addition → Option ClassDecl
  | ofEnum _ => none
  | ofClass c => some c

/-- Add an enumeration or a class. -/
def addOne (model : Model) : Addition → Model
  | .ofEnum e => model.addEnum e
  | .ofClass c => model.addClass c

/-- Add enumerations and classes one after the other. -/
def addAll (model : Model) (additions : List Addition) : Model :=
  additions.foldl addOne model

/-- A model holds what has been added to it: its maps keep the enumerations and the classes, and
the classes own their properties. -/
structure Holds (model : Model) (additions : List Addition) : Prop where
  enums : model.enumMap.Collects EnumDecl.name (fun added e => e = added)
    (additions.filterMap Addition.enum?)
  classes : model.classMap.Collects ClassDecl.name (fun added c => c.FilledFrom added)
    (additions.filterMap Addition.class?)

theorem holds_new (space : String) : (new space).Holds [] where
  enums := OrderedMap.collects_empty
  classes := OrderedMap.collects_empty

/-- A model holds what is added next. -/
theorem Holds.addOne {model : Model} {additions : List Addition} (h : model.Holds additions)
    (addition : Addition) : (model.addOne addition).Holds (additions ++ [addition]) := by
  cases addition with
  | ofEnum e =>
      have hnone : [Addition.ofEnum e].filterMap Addition.class? = [] := rfl
      refine ⟨?_, ?_⟩
      · rw [List.filterMap_append]
        exact h.enums.insert (fun _ => Iff.rfl) rfl
      · rw [List.filterMap_append, hnone, List.append_nil]
        exact h.classes
  | ofClass c =>
      have hnone : [Addition.ofClass c].filterMap Addition.enum? = [] := rfl
      refine ⟨?_, ?_⟩
      · rw [List.filterMap_append, hnone, List.append_nil]
        exact h.enums
      · rw [List.filterMap_append]
        exact h.classes.insert (fun _ => ClassDecl.filledFrom_iff) rfl

/-- A model holds everything that has been added to it. -/
theorem holds_addAll (space : String) (additions : List Addition) :
    ((new space).addAll additions).Holds additions := by
  -- from the end, since an addition may replace what was added earlier
  induction additions using List.reverseRecOn with
  | nil => exact holds_new space
  | append_singleton additions last ih =>
      rw [addAll, List.foldl_append]
      exact ih.addOne last

/-! ## Loaded models -/

/-- The maps of a model keep what is added to it, whatever is added.  A loaded model has the
enumerations and the classes that its text declares under their names, in order, none of them lost
or replaced, and the classes are as declared but for the owners of their properties. -/
theorem additions_spec :
    (∀ space additions, ((new space).addAll additions).Holds additions) ∧
      ∀ (file : SourceFile) (format : Format) (model : Model), file.load format = .ok model →
        ∃ declared, file.decode format = some declared ∧ model.space = declared.space ∧
          model.enumMap.entries = declared.enums.map (fun e => (e.name, e)) ∧
          List.Forall₂ (fun entry added => entry.1 = added.name ∧ entry.2.FilledFrom added)
            model.classMap.entries declared.classes := by
  refine ⟨holds_addAll, ?_⟩
  intro file format model h
  obtain ⟨declared, hdecode, hvalidate, rfl⟩ := SourceFile.load_eq_ok_iff.mp h
  have hvalid := declared.validate_eq_ok_iff.mp hvalidate
  obtain ⟨hnodup, -⟩ := nodup_append_iff_fresh.mp hvalid.types_nodup
  obtain ⟨henums, hclasses⟩ := ofFile_entries hnodup hvalid.classes_nodup
  refine ⟨declared, hdecode, ?_, henums, ?_⟩
  · rw [ofFile, foldl_addClass, foldl_addEnum]
    rfl
  · rw [hclasses, List.forall₂_map_left_iff, List.forall₂_same]
    exact fun c _ => ⟨rfl, ClassDecl.filledFrom_iff.mpr rfl⟩

/-- A document about swatches. -/
def swatchFile : SourceFile where
  name := "model.json"
  text := "[\"demo\", [[\"color\"]], [[\"palette\", \"entity\", null, [[\"shade\", \"color\"]]]]]"

/-- The model of the swatches. -/
def swatchModel : Model where
  space := "demo"
  enumMap := ⟨[("color", ⟨"color", false, []⟩)]⟩
  classMap :=
    ⟨[("palette",
      ⟨"palette", .entity, none, [⟨"shade", "color", false, false, none, "palette"⟩]⟩)]⟩

/-- Additions that name an enumeration twice. -/
def swatchAdditions : List Addition :=
  [.ofEnum ⟨"color", false, []⟩, .ofClass ⟨"palette", .entity, none, []⟩,
    .ofEnum ⟨"tone", false, []⟩, .ofEnum ⟨"color", true, []⟩]

theorem swatchFile_additions :
    swatchFile.load .json = .ok swatchModel ∧
      (∃ declared, swatchFile.decode .json = some declared ∧
        List.Forall₂ (fun entry added => entry.1 = added.name ∧ entry.2.FilledFrom added)
          swatchModel.classMap.entries declared.classes) ∧
      ((new "demo").addAll swatchAdditions).enumMap.entries =
        [("color", ⟨"color", true, []⟩), ("tone", ⟨"tone", false, []⟩)] ∧
      ((new "demo").addAll swatchAdditions).Holds swatchAdditions := by
  have hload : swatchFile.load .json = .ok swatchModel := by decide +kernel
  obtain ⟨hholds, hloaded⟩ := additions_spec
  obtain ⟨declared, hdecode, -, -, hclasses⟩ := hloaded swatchFile .json swatchModel hload
  exact ⟨hload, ⟨declared, hdecode, hclasses⟩, by decide, hholds "demo" swatchAdditions⟩

end Model

end SdkHeaders
