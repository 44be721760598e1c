import Mathlib
import SdkHeaders.Document.Load

/-!
# Trees that write model files

The document trees by which a model file can be written: the entries of a table stand in any order,
a field that holds its default may be left out, what is absent may be written as null where a
notation can, and entries that no record knows may be added.

Main results:

- Relation `WritesRecord` says that a table writes a record whose fields are given by rules.
- Relation `WritesFile` says that a tree writes a model file.
- Theorem `WritesRecord.exists_fields`: the fields of a record are found in a table that writes it.
- Theorem `exists_writesFile_iff`: every model file that is read from some tree can be written.
- Theorem `WritesFile.read_eq`: a tree is read as the model file that it writes, and documents of
  any notations that write the same model file yield the same model, or fail alike.
-/

namespace SdkHeaders.Document

/-! ## Records -/

/-- How a field of a record is written: as a node that tells its value, or not at all. -/
structure FieldRule where
  /-- The key of the field. -/
  name : String
  /-- A node tells the value of the field. -/
  tells : Node → Prop
  /-- The field holds its default and may be left out. -/
  omittable : Prop

/-- Some entries write fields, in order. -/
inductive WritesFields : List FieldRule → Fields → Prop
  | nil : WritesFields [] []
  | written {rule : FieldRule} {rules : List FieldRule} {node : Node} {fields : Fields}
      (h : rule.tells node) (hrest : WritesFields rules fields) :
      WritesFields (rule :: rules) ((rule.name, node) :: fields)
  | omitted {rule : FieldRule} {rules : List FieldRule} {fields : Fields}
      (h : rule.omittable) (hrest : WritesFields rules fields) :
      WritesFields (rule :: rules) fields

/-- A table writes a record: it consists of the entries of the fields and of entries under value
keys, in any order. -/
inductive WritesRecord (rules : List FieldRule) : Node → Prop
  | mk {fields extras entries : Fields} (hfields : WritesFields rules fields)
      (hextras : ∀ entry ∈ extras,
        entry.1 ∉ rules.map FieldRule.name ∧ entry.2.isSound = true)
      (horder : entries.Perm (fields ++ extras)) : WritesRecord rules (.table entries)

/-- The entries of the fields alone, in any order, write a record. -/
theorem WritesRecord.of_fields {rules : List FieldRule} {fields entries : Fields}
    (hfields : WritesFields rules fields) (horder : entries.Perm fields) :
    WritesRecord rules (.table entries) :=
  .mk hfields (List.forall_mem_nil _) (by rwa [List.append_nil])

/-- Among the entries of a table, a field is found with its value, or it is missing and holds its
default. -/
def FieldRule.Holds (rule : FieldRule) (entries : Fields) : Prop :=
  (∃ node, entries.lookup rule.name = some node ∧ rule.tells node) ∨
    entries.lookup rule.name = none ∧ rule.omittable

theorem lookup_eq_some_of_unique {entries : Fields} {name : String} {node : Node}
    (hmem : (name, node) ∈ entries) (hunique : ∀ value, (name, value) ∈ entries → value = node) :
    entries.lookup name = some node := by
  cases hlookup : entries.lookup name with
  | none => simpa using List.lookup_eq_none_iff.mp hlookup _ hmem
  | some value =>
      obtain ⟨before, after, rfl, -⟩ := List.lookup_eq_some_iff.mp hlookup
      rw [hunique value (by simp)]

namespace WritesFields

variable {rules : List FieldRule} {fields : Fields}

/-- The entries of fields have the names of these, in order. -/
theorem names_sublist (h : WritesFields rules fields) :
    (fields.map Prod.fst).Sublist (rules.map FieldRule.name) := by
  induction h with
  | nil => exact List.Sublist.refl _
  | written _ _ ih => exact ih.cons_cons _
  | omitted _ _ ih => exact ih.cons _

/-- Each field has an entry that tells its value, or it may be left out and has none. -/
theorem mem_or_not_mem (h : WritesFields rules fields)
    (hnodup : (rules.map FieldRule.name).Nodup) {rule : FieldRule} (hrule : rule ∈ rules) :
    (∃ node, (rule.name, node) ∈ fields ∧ rule.tells node) ∨
      rule.name ∉ fields.map Prod.fst ∧ rule.omittable := by
  induction h with
  | nil => cases hrule
  | @written first rules node fields htells hrest ih =>
      rw [List.map_cons, List.nodup_cons] at hnodup
      rcases List.mem_cons.mp hrule with rfl | hrule
      · exact .inl ⟨node, List.mem_cons_self, htells⟩
      · rcases ih hnodup.2 hrule with ⟨value, hmem, hvalue⟩ | ⟨hmissing, homit⟩
        · exact .inl ⟨value, List.mem_cons_of_mem _ hmem, hvalue⟩
        · have hne : rule.name ≠ first.name := fun heq =>
            hnodup.1 (heq ▸ List.mem_map_of_mem hrule)
          exact .inr ⟨List.not_mem_cons_of_ne_of_not_mem hne hmissing, homit⟩
  | @omitted first rules fields homit hrest ih =>
      rw [List.map_cons, List.nodup_cons] at hnodup
      rcases List.mem_cons.mp hrule with rfl | hrule
      · exact .inr ⟨fun hmem => hnodup.1 (hrest.names_sublist.subset hmem), homit⟩
      · exact ih hnodup.2 hrule

end WritesFields

section Entries

variable {rules : List FieldRule} {fields extras entries : Fields}
  (hfields : WritesFields rules fields)
  (hextras : ∀ entry ∈ extras, entry.1 ∉ rules.map FieldRule.name ∧ entry.2.isSound = true)
  (horder : entries.Perm (fields ++ extras))

include hextras horder

/-- An entry under the name of a field is one of the entries of the fields. -/
theorem mem_fields_of_mem {name : String} (hname : name ∈ rules.map FieldRule.name) {node : Node}
    (hmem : (name, node) ∈ entries) : (name, node) ∈ fields := by
  rcases List.mem_append.mp (horder.mem_iff.mp hmem) with hmem | hmem
  · exact hmem
  · exact absurd hname (hextras _ hmem).1

include hfields

variable (hnodup : (rules.map FieldRule.name).Nodup)

include hnodup

/-- No field has two entries. -/
theorem isRepeated_eq_false {name : String} (hname : name ∈ rules.map FieldRule.name) :
    isRepeated entries name = false := by
  have hextra : extras.filter (fun entry => entry.1 = name) = [] := by
    rw [List.filter_eq_nil_iff]
    intro entry hentry heq
    exact (hextras entry hentry).1 (of_decide_eq_true heq ▸ hname)
  have hlength : (entries.filter fun entry => entry.1 = name).length =
      (fields.map Prod.fst).count name := by
    rw [(horder.filter _).length_eq, List.filter_append, hextra, List.append_nil,
      ← List.countP_eq_length_filter, List.count, List.countP_map]
    rfl
  have hcount := List.nodup_iff_count_le_one.mp (hfields.names_sublist.nodup hnodup) name
  rw [isRepeated, hlength]
  exact decide_eq_false (Nat.not_lt.mpr hcount)

/-- A field is found among the entries by its value, or it is missing and holds its default. -/
theorem holds_of_mem {rule : FieldRule} (hrule : rule ∈ rules) : rule.Holds entries := by
  have hname := List.mem_map_of_mem (f := FieldRule.name) hrule
  rcases hfields.mem_or_not_mem hnodup hrule with ⟨node, hmem, htells⟩ | ⟨hmissing, homit⟩
  · refine .inl ⟨node, lookup_eq_some_of_unique ?_ fun value hvalue => ?_, htells⟩
    · exact horder.mem_iff.mpr (List.mem_append_left _ hmem)
    · have hvalue := mem_fields_of_mem hextras horder hname hvalue
      have hkeys := hfields.names_sublist.nodup hnodup
      exact (Prod.ext_iff.mp (List.inj_on_of_nodup_map hkeys hvalue hmem rfl)).2
  · refine .inr ⟨List.lookup_eq_none_iff.mpr fun entry hentry => ?_, homit⟩
    rw [bne_iff_ne]
    rintro heq
    have hentry : (rule.name, entry.2) ∈ fields :=
      mem_fields_of_mem hextras horder hname (heq ▸ hentry)
    exact hmissing (List.mem_map_of_mem (f := Prod.fst) hentry)

end Entries

/-- A table that writes a record is taken as one, and its fields are found. -/
theorem WritesRecord.exists_fields {rules : List FieldRule} {node : Node}
    (h : WritesRecord rules node) (dialect : Dialect) (names : List String)
    (hnames : rules.map FieldRule.name = names) (hnodup : names.Nodup) :
    ∃ entries, fieldsOf dialect names node = some entries ∧
      ∀ rule ∈ rules, rule.Holds entries := by
  subst hnames
  cases h with | @mk fields extras entries hfields hextras horder => ?_
  refine ⟨entries, ?_, fun rule hrule => holds_of_mem hfields hextras horder hnodup hrule⟩
  have hrepeated : (rules.map FieldRule.name).any (isRepeated entries) = false := by
    rw [List.any_eq_false]
    intro name hname
    rw [isRepeated_eq_false hfields hextras horder hnodup hname]
    exact Bool.false_ne_true
  have hpassable : entries.all (isPassable (rules.map FieldRule.name)) = true := by
    rw [List.all_eq_true]
    intro entry hentry
    rw [isPassable, Bool.or_eq_true, List.contains_iff_mem]
    rcases List.mem_append.mp (horder.mem_iff.mp hentry) with hmem | hmem
    · exact .inl (hfields.names_sublist.subset (List.mem_map_of_mem hmem))
    · exact .inr (hextras entry hmem).2
  rw [fieldsOf, hrepeated, hpassable]
  rfl

/-! ## Fields -/

namespace FieldRule.Holds

variable {rule : FieldRule} {entries : Fields} {α : Type} {decode : Node → Option α} {x : α}
  (h : rule.Holds entries) (hdecode : ∀ node, rule.tells node → decode node = some x)

include h hdecode

/-- A field that has to be present is read as its value. -/
theorem required_eq (hpresent : ¬ rule.omittable) :
    required decode rule.name entries = some x := by
  rcases h with ⟨node, hlookup, htells⟩ | ⟨-, homit⟩
  · rw [required, hlookup, Option.bind_some, hdecode node htells]
  · exact absurd homit hpresent

/-- A field that stands for a default when it is missing is read as its value. -/
theorem defaulted_eq {default : α} (hdefault : rule.omittable → x = default) :
    defaulted default decode rule.name entries = some x := by
  rcases h with ⟨node, hlookup, htells⟩ | ⟨hlookup, homit⟩
  · rw [defaulted, hlookup]
    exact hdecode node htells
  · rw [defaulted, hlookup, hdefault homit]

end FieldRule.Holds

/-! ## Values -/

/-- A node tells a whole number of signed 64 bits. -/
inductive TellsInteger (n : Int) : Node → Prop
  | mk (hrange : -Int.pow 2 63 ≤ n ∧ n < Int.pow 2 63) : TellsInteger n (.integer n)

/-- A node tells a value or its absence, which some notations can write. -/
inductive TellsOption {α : Type} (format : Format) (tells : α → Node → Prop) :
    Option α → Node → Prop
  | some {x : α} {node : Node} (h : tells x node) : TellsOption format tells (some x) node
  | none (h : format = .json) : TellsOption format tells none .null

/-- A node tells values in order. -/
inductive TellsList {α : Type} (tells : α → Node → Prop) (xs : List α) : Node → Prop
  | mk {items : List Node} (h : List.Forall₂ tells xs items) : TellsList tells xs (.list items)

section Values

variable {α : Type} {tells : α → Node → Prop} {decode : Node → Option α}

theorem decodeInteger_of_tells {n : Int} {node : Node} (h : TellsInteger n node) :
    decodeInteger node = some n := by
  obtain ⟨hrange⟩ := h
  exact if_pos hrange

/-- A value or its absence is read if the value is. -/
theorem decodeOption_of_tells {format : Format}
    (hdecode : ∀ x node, tells x node → node ≠ .null ∧ decode node = some x) {x : Option α}
    {node : Node} (h : TellsOption format tells x node) : decodeOption decode node = some x := by
  cases h with
  | none => rfl
  | @some x node h =>
      obtain ⟨hne, hx⟩ := hdecode x node h
      cases node <;> first | exact absurd rfl hne | exact congrArg (Option.map some) hx

/-- Values in order are read if each of them is. -/
theorem decodeList_of_tells (hdecode : ∀ x node, tells x node → decode node = some x)
    {xs : List α} {node : Node} (h : TellsList tells xs node) :
    decodeList decode node = some xs := by
  obtain ⟨hitems⟩ := h
  rename_i items
  change items.mapM decode = some xs
  induction hitems with
  | nil => rfl
  | cons hfirst _ ih => rw [List.mapM_cons, hdecode _ _ hfirst, ih]; rfl

theorem decodeKind_of_tells (dialect : Dialect) {kind : ClassKind} {node : Node}
    (h : node = .text kind.text) : decodeKind dialect node = some kind := by
  have hkind : kindOfText kind.text = some kind := by cases kind <;> decide
  rw [h]
  exact hkind

end Values

/-! ## Model files -/

section Rules

variable (format : Format)

/-- The fields of a member of an enumeration. -/
def memberRules (m : EnumMember) : List FieldRule :=
  [⟨"name", (· = .text m.name), False⟩,
    ⟨"value", TellsOption format TellsInteger m.value, m.value = none⟩]

/-- The fields of an enumeration. -/
def enumRules (e : EnumDecl) : List FieldRule :=
  [⟨"name", (· = .text e.name), False⟩, ⟨"flags", (· = .flag e.flags), e.flags = false⟩,
    ⟨"members", TellsList (fun m => WritesRecord (memberRules format m)) e.members,
      e.members = []⟩]

/-- The fields of a property; its owner is not among them. -/
def propertyRules (p : Property) : List FieldRule :=
  [⟨"name", (· = .text p.name), False⟩, ⟨"type", (· = .text p.type), False⟩,
    ⟨"collection", (· = .flag p.collection), p.collection = false⟩,
    ⟨"navigation", (· = .flag p.navigation), p.navigation = false⟩,
    ⟨"description", TellsOption format (fun s node => node = .text s) p.description,
      p.description = none⟩]

/-- A node writes a property of a model file, which is not owned by a class yet. -/
structure WritesProperty (p : Property) (node : Node) : Prop where
  unowned : p.owner = ""
  record : WritesRecord (propertyRules format p) node

/-- The fields of a class. -/
def classRules (c : ClassDecl) : List FieldRule :=
  [⟨"name", (· = .text c.name), False⟩,
    ⟨"kind", (· = .text c.kind.text), c.kind = .entity⟩,
    ⟨"base", TellsOption format (fun s node => node = .text s) c.base, c.base = none⟩,
    ⟨"properties", TellsList (WritesProperty format) c.properties, c.properties = []⟩]

/-- The fields of a model file. -/
def fileRules (file : ModelFile) : List FieldRule :=
  [⟨"namespace", (· = .text file.space), False⟩,
    ⟨"enums", TellsList (fun e => WritesRecord (enumRules format e)) file.enums, file.enums = []⟩,
    ⟨"classes", TellsList (fun c => WritesRecord (classRules format c)) file.classes,
      file.classes = []⟩]

/-- A tree writes a model file. -/
def WritesFile (file : ModelFile) (tree : Node) : Prop :=
  WritesRecord (fileRules format file) tree

end Rules

section Decoding

variable {format : Format} (dialect : Dialect)

theorem decodeText_of_tells {s : String} {node : Node} (h : node = .text s) :
    decodeText node = some s := by
  rw [h]
  rfl

theorem decodeFlag_of_tells {b : Bool} {node : Node} (h : node = .flag b) :
    decodeFlag node = some b := by
  rw [h]
  rfl

theorem decodeOptionalText_of_tells {s : Option String} {node : Node}
    (h : TellsOption format (fun s node => node = .text s) s node) :
    decodeOption decodeText node = some s := by
  refine decodeOption_of_tells (fun text node htext => ⟨?_, decodeText_of_tells htext⟩) h
  rw [htext]
  exact Node.noConfusion

theorem decodeOptionalInteger_of_tells {n : Option Int} {node : Node}
    (h : TellsOption format TellsInteger n node) :
    decodeOption decodeInteger node = some n := by
  refine decodeOption_of_tells (fun value node hvalue => ⟨?_, decodeInteger_of_tells hvalue⟩) h
  obtain ⟨-⟩ := hvalue
  exact Node.noConfusion

/-- A member of an enumeration is read from what writes it. -/
theorem decodeMember_of_writes {m : EnumMember} {node : Node}
    (h : WritesRecord (memberRules format m) node) : decodeMember dialect node = some m := by
  obtain ⟨entries, hentries, hholds⟩ :=
    h.exists_fields dialect ["name", "value"] rfl (by decide)
  simp only [memberRules, List.forall_mem_cons] at hholds
  obtain ⟨hname, hvalue, -⟩ := hholds
  have hname : required decodeText "name" entries = some m.name :=
    hname.required_eq (fun _ => decodeText_of_tells) not_false
  have hvalue : defaulted none (decodeOption decodeInteger) "value" entries = some m.value :=
    hvalue.defaulted_eq (fun _ => decodeOptionalInteger_of_tells) id
  simp only [decodeMember, hentries, Option.bind_eq_bind, Option.bind_some, hname, hvalue]
  rfl

/-- An enumeration is read from what writes it. -/
theorem decodeEnum_of_writes {e : EnumDecl} {node : Node}
    (h : WritesRecord (enumRules format e) node) : decodeEnum dialect node = some e := by
  obtain ⟨entries, hentries, hholds⟩ :=
    h.exists_fields dialect ["name", "flags", "members"] rfl (by decide)
  simp only [enumRules, List.forall_mem_cons] at hholds
  obtain ⟨hname, hflags, hmembers, -⟩ := hholds
  have hname : required decodeText "name" entries = some e.name :=
    hname.required_eq (fun _ => decodeText_of_tells) not_false
  have hflags : defaulted false decodeFlag "flags" entries = some e.flags :=
    hflags.defaulted_eq (fun _ => decodeFlag_of_tells) id
  have hmembers : defaulted [] (decodeList (decodeMember dialect)) "members" entries =
      some e.members :=
    hmembers.defaulted_eq
      (fun _ => decodeList_of_tells (fun _ _ h => decodeMember_of_writes dialect h)) id
  simp only [decodeEnum, hentries, Option.bind_eq_bind, Option.bind_some, hname, hflags, hmembers]
  rfl

/-- A property is read from what writes it. -/
theorem decodeProperty_of_writes {p : Property} {node : Node}
    (h : WritesProperty format p node) : decodeProperty dialect node = some p := by
  obtain ⟨entries, hentries, hholds⟩ :=
    h.record.exists_fields dialect
      ["name", "type", "collection", "navigation", "description"] rfl (by decide)
  simp only [propertyRules, List.forall_mem_cons] at hholds
  obtain ⟨hname, htype, hcollection, hnavigation, hdescription, -⟩ := hholds
  have hname : required decodeText "name" entries = some p.name :=
    hname.required_eq (fun _ => decodeText_of_tells) not_false
  have htype : required decodeText "type" entries = some p.type :=
    htype.required_eq (fun _ => decodeText_of_tells) not_false
  have hcollection : defaulted false decodeFlag "collection" entries = some p.collection :=
    hcollection.defaulted_eq (fun _ => decodeFlag_of_tells) id
  have hnavigation : defaulted false decodeFlag "navigation" entries = some p.navigation :=
    hnavigation.defaulted_eq (fun _ => decodeFlag_of_tells) id
  have hdescription : defaulted none (decodeOption decodeText) "description" entries =
      some p.description :=
    hdescription.defaulted_eq (fun _ => decodeOptionalText_of_tells) id
  simp only [decodeProperty, hentries, Option.bind_eq_bind, Option.bind_some, hname, htype,
    hcollection, hnavigation, hdescription]
  obtain ⟨name, type, collection, navigation, description, owner⟩ := p
  obtain rfl : owner = "" := h.unowned
  rfl

/-- A class is read from what writes it. -/
theorem decodeClass_of_writes {c : ClassDecl} {node : Node}
    (h : WritesRecord (classRules format c) node) : decodeClass dialect node = some c := by
  obtain ⟨entries, hentries, hholds⟩ :=
    h.exists_fields dialect ["name", "kind", "base", "properties"] rfl (by decide)
  simp only [classRules, List.forall_mem_cons] at hholds
  obtain ⟨hname, hkind, hbase, hproperties, -⟩ := hholds
  have hname : required decodeText "name" entries = some c.name :=
    hname.required_eq (fun _ => decodeText_of_tells) not_false
  have hkind : defaulted .entity (decodeKind dialect) "kind" entries = some c.kind :=
    hkind.defaulted_eq (fun _ => decodeKind_of_tells dialect) id
  have hbase : defaulted none (decodeOption decodeText) "base" entries = some c.base :=
    hbase.defaulted_eq (fun _ => decodeOptionalText_of_tells) id
  have hproperties : defaulted [] (decodeList (decodeProperty dialect)) "properties" entries =
      some c.properties :=
    hproperties.defaulted_eq
      (fun _ => decodeList_of_tells (fun _ _ h => decodeProperty_of_writes dialect h)) id
  simp only [decodeClass, hentries, Option.bind_eq_bind, Option.bind_some, hname, hkind, hbase,
    hproperties]
  rfl

/-- A model file is read from what writes it, whatever the dialect. -/
theorem decodeFile_of_writes {file : ModelFile} {tree : Node} (h : WritesFile format file tree) :
    decodeFile dialect tree = some file := by
  obtain ⟨entries, hentries, hholds⟩ :=
    WritesRecord.exists_fields h dialect ["namespace", "enums", "classes"] rfl
      (by decide)
  simp only [fileRules, List.forall_mem_cons] at hholds
  obtain ⟨hspace, henums, hclasses, -⟩ := hholds
  have hspace : required decodeText "namespace" entries = some file.space :=
    hspace.required_eq (fun _ => decodeText_of_tells) not_false
  have henums : defaulted [] (decodeList (decodeEnum dialect)) "enums" entries =
      some file.enums :=
    henums.defaulted_eq
      (fun _ => decodeList_of_tells (fun _ _ h => decodeEnum_of_writes dialect h)) id
  have hclasses : defaulted [] (decodeList (decodeClass dialect)) "classes" entries =
      some file.classes :=
    hclasses.defaulted_eq
      (fun _ => decodeList_of_tells (fun _ _ h => decodeClass_of_writes dialect h)) id
  simp only [decodeFile, hentries, Option.bind_eq_bind, Option.bind_some, hspace, henums, hclasses]
  rfl

end Decoding

/-! ## Existence -/

/-- A record is written by a table if each of its fields is told by a node or may be left out. -/
theorem WritesRecord.exists_of_forall {rules : List FieldRule}
    (h : ∀ rule ∈ rules, (∃ node, rule.tells node) ∨ rule.omittable) :
    ∃ node, WritesRecord rules node := by
  obtain ⟨fields, hfields⟩ : ∃ fields, WritesFields rules fields := by
    induction rules with
    | nil => exact ⟨[], .nil⟩
    | cons rule rest ih =>
        obtain ⟨hrule, hrest⟩ := List.forall_mem_cons.mp h
        obtain ⟨fields, hfields⟩ := ih hrest
        rcases hrule with ⟨node, htells⟩ | homit
        · exact ⟨(rule.name, node) :: fields, .written htells hfields⟩
        · exact ⟨fields, .omitted homit hfields⟩
  exact ⟨.table fields, .of_fields hfields (.refl _)⟩

/-- Values in order are told by a node if each of them is. -/
theorem exists_tellsList {α : Type} {tells : α → Node → Prop} {xs : List α}
    (h : ∀ x ∈ xs, ∃ node, tells x node) : ∃ node, TellsList tells xs node := by
  suffices hitems : ∃ items, List.Forall₂ tells xs items by
    obtain ⟨items, hitems⟩ := hitems
    exact ⟨.list items, ⟨hitems⟩⟩
  induction xs with
  | nil => exact ⟨[], .nil⟩
  | cons x rest ih =>
      obtain ⟨⟨node, hnode⟩, hrest⟩ := List.forall_mem_cons.mp h
      obtain ⟨items, hitems⟩ := ih hrest
      exact ⟨node :: items, .cons hnode hitems⟩

/-- A value that may be absent is told by a node, or it is absent. -/
theorem exists_tellsOption_or_eq_none {α : Type} {format : Format} {tells : α → Node → Prop}
    {x : Option α} (h : ∀ y, x = some y → ∃ node, tells y node) :
    (∃ node, TellsOption format tells x node) ∨ x = none := by
  cases x with
  | none => exact .inr rfl
  | some y =>
      obtain ⟨node, hnode⟩ := h y rfl
      exact .inl ⟨node, .some hnode⟩

section Existence

variable {dialect : Dialect} {node : Node}

/-- Decoded values in order are told by a node if each decoded value is. -/
theorem exists_tellsList_of_decoded {α : Type} {tells : α → Node → Prop}
    {decode : Node → Option α} {name : String} {fields : Fields} {xs : List α}
    (hdecoded : ∀ x node, decode node = some x → ∃ node, tells x node)
    (h : defaulted [] (decodeList decode) name fields = some xs) :
    ∃ node, TellsList tells xs node := by
  refine exists_tellsList fun x hx => ?_
  rcases eq_default_or_decoded h with rfl | ⟨inner, hinner⟩
  · cases hx
  · obtain ⟨item, hitem⟩ := exists_decoded_of_mem hinner hx
    exact hdecoded x item hitem

variable (format : Format)

/-- A member of an enumeration that is read can be written. -/
theorem exists_writesMember {m : EnumMember} (h : decodeMember dialect node = some m) :
    ∃ node, WritesRecord (memberRules format m) node := by
  refine WritesRecord.exists_of_forall ?_
  simp only [memberRules, List.forall_mem_cons]
  exact ⟨.inl ⟨_, rfl⟩,
    exists_tellsOption_or_eq_none fun n hn => ⟨_, .mk (value_range_of_decodeMember h hn)⟩,
    List.forall_mem_nil _⟩

/-- An enumeration that is read can be written. -/
theorem exists_writesEnum {e : EnumDecl} (h : decodeEnum dialect node = some e) :
    ∃ node, WritesRecord (enumRules format e) node := by
  obtain ⟨fields, -, h⟩ := Option.bind_eq_some_iff.mp h
  obtain ⟨name, -, h⟩ := Option.bind_eq_some_iff.mp h
  obtain ⟨flags, -, h⟩ := Option.bind_eq_some_iff.mp h
  obtain ⟨members, hmembers, h⟩ := Option.bind_eq_some_iff.mp h
  cases h
  refine WritesRecord.exists_of_forall ?_
  simp only [enumRules, List.forall_mem_cons]
  exact ⟨.inl ⟨_, rfl⟩, .inl ⟨_, rfl⟩,
    .inl (exists_tellsList_of_decoded (fun _ _ => exists_writesMember format) hmembers),
    List.forall_mem_nil _⟩

/-- A property that is read can be written. -/
theorem exists_writesProperty {p : Property} (h : decodeProperty dialect node = some p) :
    ∃ node, WritesProperty format p node := by
  have howner : p.owner = "" := by
    obtain ⟨fields, -, h⟩ := Option.bind_eq_some_iff.mp h
    obtain ⟨name, -, h⟩ := Option.bind_eq_some_iff.mp h
    obtain ⟨type, -, h⟩ := Option.bind_eq_some_iff.mp h
    obtain ⟨collection, -, h⟩ := Option.bind_eq_some_iff.mp h
    obtain ⟨navigation, -, h⟩ := Option.bind_eq_some_iff.mp h
    obtain ⟨description, -, h⟩ := Option.bind_eq_some_iff.mp h
    cases h
    rfl
  have hrecord : ∃ node, WritesRecord (propertyRules format p) node := by
    refine WritesRecord.exists_of_forall ?_
    simp only [propertyRules, List.forall_mem_cons]
    exact ⟨.inl ⟨_, rfl⟩, .inl ⟨_, rfl⟩, .inl ⟨_, rfl⟩, .inl ⟨_, rfl⟩,
      exists_tellsOption_or_eq_none fun _ _ => ⟨_, rfl⟩, List.forall_mem_nil _⟩
  exact hrecord.imp fun _ hnode => ⟨howner, hnode⟩

/-- A class that is read can be written. -/
theorem exists_writesClass {c : ClassDecl} (h : decodeClass dialect node = some c) :
    ∃ node, WritesRecord (classRules format c) node := by
  obtain ⟨fields, -, h⟩ := Option.bind_eq_some_iff.mp h
  obtain ⟨name, -, h⟩ := Option.bind_eq_some_iff.mp h
  obtain ⟨kind, -, h⟩ := Option.bind_eq_some_iff.mp h
  obtain ⟨base, -, h⟩ := Option.bind_eq_some_iff.mp h
  obtain ⟨properties, hproperties, h⟩ := Option.bind_eq_some_iff.mp h
  cases h
  refine WritesRecord.exists_of_forall ?_
  simp only [classRules, List.forall_mem_cons]
  exact ⟨.inl ⟨_, rfl⟩, .inl ⟨_, rfl⟩, exists_tellsOption_or_eq_none fun _ _ => ⟨_, rfl⟩,
    .inl (exists_tellsList_of_decoded (fun _ _ => exists_writesProperty format) hproperties),
    List.forall_mem_nil _⟩

/-- The model files that some tree writes are those that are read from some tree at all. -/
theorem exists_writesFile_iff {file : ModelFile} :
    (∃ tree, WritesFile format file tree) ↔
      ∃ tree, decodeFile format.dialect tree = some file := by
  constructor
  · rintro ⟨tree, h⟩
    exact ⟨tree, decodeFile_of_writes format.dialect h⟩
  · rintro ⟨tree, h⟩
    obtain ⟨fields, -, h⟩ := Option.bind_eq_some_iff.mp h
    obtain ⟨space, -, h⟩ := Option.bind_eq_some_iff.mp h
    obtain ⟨enums, henums, h⟩ := Option.bind_eq_some_iff.mp h
    obtain ⟨classes, hclasses, h⟩ := Option.bind_eq_some_iff.mp h
    cases h
    refine WritesRecord.exists_of_forall ?_
    simp only [fileRules, List.forall_mem_cons]
    exact ⟨.inl ⟨_, rfl⟩,
      .inl (exists_tellsList_of_decoded (fun _ _ => exists_writesEnum format) henums),
      .inl (exists_tellsList_of_decoded (fun _ _ => exists_writesClass format) hclasses),
      List.forall_mem_nil _⟩

end Existence

end SdkHeaders.Document

namespace SdkHeaders

open Document

/-! ## Loading -/

namespace SourceFile

variable {format : Format} {declared : ModelFile} {tree : Node}

/-- A text is read as the model file that its tree writes. -/
theorem decode_of_writes {file : SourceFile} (hread : format.read file.text = some tree)
    (h : WritesFile format declared tree) : file.decode format = some declared := by
  rw [decode, hread]
  exact decodeFile_of_writes format.dialect h

/-- A violation is told with the same code and the same message in all files. -/
theorem locate_alike (file other : SourceFile) (violation : Violation) :
    (file.locate violation).code = (other.locate violation).code ∧
      (file.locate violation).message = (other.locate violation).message := by
  cases violation <;> exact ⟨rfl, rfl⟩

/-- Two files are loaded alike: both give the same model, or both break the same rule of models,
which is told with the same code and the same message. -/
def LoadAlike (file : SourceFile) (format : Format) (other : SourceFile) (otherFormat : Format) :
    Prop :=
  (∃ model, file.load format = .ok model ∧ other.load otherFormat = .ok model) ∨
    ∃ violation, file.load format = .error (file.locate violation) ∧
      other.load otherFormat = .error (other.locate violation) ∧
        (file.locate violation).code = (other.locate violation).code ∧
          (file.locate violation).message = (other.locate violation).message

/-- Files that decode to the same model file are loaded alike. -/
theorem loadAlike_of_decode {file other : SourceFile} {otherFormat : Format}
    (h : file.decode format = some declared) (h' : other.decode otherFormat = some declared) :
    LoadAlike file format other otherFormat := by
  unfold LoadAlike load
  simp only [h, h']
  cases declared.validate with
  | ok _ => exact .inl ⟨_, rfl, rfl⟩
  | error violation => exact .inr ⟨violation, rfl, rfl, locate_alike file other violation⟩

end SourceFile

/-- A tree is read as the model file that it writes, and documents of any notations whose trees
write the same model file are loaded alike. -/
theorem Document.WritesFile.read_eq {format : Format} {declared : ModelFile} {tree : Node}
    (h : WritesFile format declared tree) :
    decodeFile format.dialect tree = some declared ∧
      ∀ (file other : SourceFile) (otherFormat : Format) (otherTree : Node),
        format.read file.text = some tree → otherFormat.read other.text = some otherTree →
          WritesFile otherFormat declared otherTree →
            SourceFile.LoadAlike file format other otherFormat := by
  refine ⟨decodeFile_of_writes format.dialect h, ?_⟩
  intro file other otherFormat otherTree hread hread' h'
  exact SourceFile.loadAlike_of_decode (SourceFile.decode_of_writes hread h)
    (SourceFile.decode_of_writes hread' h')

/-- The hue of a lamp. -/
def hueProperty : Property where
  name := "hue"
  type := "Byte"
  collection := false
  navigation := false
  description := none
  owner := ""

/-- A model file with lamps. -/
def lampFile : ModelFile where
  space := "demo"
  enums := []
  classes := [⟨"lamp", .entity, none, [hueProperty]⟩]

/-- Lamps in nested objects; the base is null, and the hue has an owner. -/
def lampJson : SourceFile where
  name := "lamp.json"
  text :=
    "\x7b\"classes\": [\x7b\"base\": null, \"name\": \"lamp\", \"properties\": " ++
      "[\x7b\"owner\": \"me\", \"type\": \"Byte\", \"name\": \"hue\"\x7d]\x7d], " ++
      "\"namespace\": \"demo\"\x7d"

/-- The tree of lamps in nested objects. -/
def lampJsonTree : Node :=
  .table
    [("classes", .list [.table [("base", .null), ("name", .text "lamp"), ("properties", .list
        [.table [("owner", .text "me"), ("type", .text "Byte"), ("name", .text "hue")]])]]),
      ("namespace", .text "demo")]

/-- Lamps line by line; the kind of the class is told. -/
def lampToml : SourceFile where
  name := "lamp.toml"
  text :=
    "namespace = \"demo\"\n[[classes]]\nname = \"lamp\"\nkind = \"entity\"\n" ++
      "[[classes.properties]]\nname = \"hue\"\ntype = \"Byte\"\n"

/-- The tree of lamps line by line. -/
def lampTomlTree : Node :=
  .table
    [("namespace", .text "demo"),
      ("classes", .list [.table [("name", .text "lamp"), ("kind", .text "entity"),
        ("properties", .list [.table [("name", .text "hue"), ("type", .text "Byte")]])]])]

/-- The fields of the hue that are written. -/
theorem writesFields_hue (format : Format) :
    WritesFields (propertyRules format hueProperty)
      [("name", .text "hue"), ("type", .text "Byte")] :=
  .written rfl (.written rfl (.omitted rfl (.omitted rfl (.omitted rfl .nil))))

theorem writesFile_lampJsonTree : WritesFile .json lampFile lampJsonTree := by
  have howner : ∀ entry ∈ ([("owner", .text "me")] : Fields),
      entry.1 ∉ (propertyRules .json hueProperty).map FieldRule.name ∧
        entry.2.isSound = true := by
    simp [propertyRules, Node.isSound]
  have hhue : WritesProperty .json hueProperty
      (.table [("owner", .text "me"), ("type", .text "Byte"), ("name", .text "hue")]) :=
    ⟨rfl, .mk (writesFields_hue .json) howner
      (List.reverse_perm
        ([("name", .text "hue"), ("type", .text "Byte"), ("owner", .text "me")] : Fields))⟩
  have hlamp : WritesRecord (classRules .json ⟨"lamp", .entity, none, [hueProperty]⟩)
      (.table [("base", .null), ("name", .text "lamp"), ("properties", .list
        [.table [("owner", .text "me"), ("type", .text "Byte"), ("name", .text "hue")]])]) :=
    .of_fields (.written rfl (.omitted rfl (.written (.none rfl)
      (.written ⟨.cons hhue .nil⟩ .nil)))) (.swap _ _ _)
  exact .of_fields (.written rfl (.omitted rfl (.written ⟨.cons hlamp .nil⟩ .nil))) (.swap _ _ _)

theorem writesFile_lampTomlTree : WritesFile .toml lampFile lampTomlTree := by
  have hhue : WritesProperty .toml hueProperty
      (.table [("name", .text "hue"), ("type", .text "Byte")]) :=
    ⟨rfl, .of_fields (writesFields_hue .toml) (.refl _)⟩
  have hlamp : WritesRecord (classRules .toml ⟨"lamp", .entity, none, [hueProperty]⟩)
      (.table [("name", .text "lamp"), ("kind", .text "entity"),
        ("properties", .list [.table [("name", .text "hue"), ("type", .text "Byte")]])]) :=
    .of_fields (.written rfl (.written rfl (.omitted rfl
      (.written ⟨.cons hhue .nil⟩ .nil)))) (.refl _)
  exact .of_fields (.written rfl (.omitted rfl (.written ⟨.cons hlamp .nil⟩ .nil))) (.refl _)

theorem read_lampJson : Format.json.read lampJson.text = some lampJsonTree := by cbv

theorem read_lampToml : Format.toml.read lampToml.text = some lampTomlTree := by cbv

/-- Lamps are read from their tree, and alike from both documents. -/
theorem lampFile_read_eq :
    WritesFile .json lampFile lampJsonTree ∧
      decodeFile Format.json.dialect lampJsonTree = some lampFile ∧
        SourceFile.LoadAlike lampJson .json lampToml .toml := by
  obtain ⟨hdecode, halike⟩ := WritesFile.read_eq writesFile_lampJsonTree
  exact ⟨writesFile_lampJsonTree, hdecode,
    halike lampJson lampToml .toml lampTomlTree read_lampJson read_lampToml writesFile_lampTomlTree⟩

end SdkHeaders
