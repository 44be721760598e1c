import Mathlib.Data.List.Flatten
import SdkHeaders.Proofs.DeclaredTypes
import SdkHeaders.Proofs.GuardedCalls
import SdkHeaders.Proofs.LiteralText
import SdkHeaders.Proofs.ReservedWords

/-!
# Reading objects

The function that reads the objects of a class: which calls it consists of, and how they belong to
the data members that the class declares.

Main results:

- Relation `ReadsProperty` says that a call reads a property into a data member.
- Theorem `Declaration.fieldLines_sublist`: the data members of a declaration stand on lines of its
  text.
- Structure `ReadsObject` says that a function reads the objects of a class, call by call.
- Theorem `Descriptor.dataType_readsObject`: the data type of a class comes with such a function,
  if the names of its properties can stand in literals.
-/

namespace SdkHeaders

open Header Text

/-! ## Calls -/

/-- A call in a reader of objects. -/
inductive ReadCall where
  /-- Read the part of the object that belongs to its base. -/
  | upcast (base : String)
  /-- Read what stands under a key into a data member; the type of its elements may be given. -/
  | field (key member : String) (element : Option String)
  deriving DecidableEq, Repr

/-- A call as it is written. -/
def ReadCall.text : ReadCall → String
  | upcast base => "Deserialize(jsonValue, static_cast<" ++ base ++ "&>(object))"
  | field key member none =>
      "Deserialize(jsonValue.at(U(\"" ++ key ++ "\")), object." ++ member ++ ")"
  | field key member (some element) =>
      "Deserialize<" ++ element ++ ">(jsonValue.at(U(\"" ++ key ++ "\")), object." ++ member ++ ")"

theorem ReadCall.text_field_some (key member element : String) :
    (field key member (some element)).text = "Deserialize<" ++ element ++
      ">(jsonValue.at(U(\"" ++ key ++ "\")), object." ++ member ++ ")" := rfl

/-- A call reads a property into a declared data member: its key denotes the name of the property,
and it gives the type of the elements exactly if the data member is declared as a vector of it. -/
inductive ReadsProperty (p : Property) (declared : TypeExpr × String) : ReadCall → Prop
  | mk {key : String} {element : Option String} (hkey : Literal.Denotes key.toList p.name.toList)
      (helement : ∀ t, element = some t ↔ declared.1.text = "std::vector<" ++ t ++ ">") :
      ReadsProperty p declared (.field key declared.2 element)

/-- The calls before those of the properties: an object is first read as one of its base. -/
def baseCalls (c : ClassDecl) : List ReadCall :=
  c.base.toList.map fun base => .upcast (Cpp.naming.typeName base)

/-- The calls after those of the properties: an object without base reads its type tag, if there
is one. -/
def tagCalls (c : ClassDecl) (present : String → Bool) : List ReadCall :=
  if c.base = none ∧ present "@odata.type" = true then [.field "@odata.type" "odata" none] else []

/-- The call that reads a property. -/
def Property.readCall (p : Property) : ReadCall :=
  .field p.name (Cpp.naming.memberName p.name)
    ((if p.collection then some (p.elementType .standard) else none).map TypeExpr.text)

/-! ## Types of data members -/

/-- The spelling of a type that is no template is not that of a vector. -/
theorem Target.resolve_ne_vector (type t : String) :
    (Target.standard.resolve type).text ≠ "std::vector<" ++ t ++ ">" := by
  intro heq
  have hstart : "std::vector<".toList <+: (Target.standard.resolve type).text.toList := by
    rw [heq, String.append_assoc, String.toList_append]
    exact List.prefix_append _ _
  by_cases hprimitive : Target.standard.NotPrimitive type
  · -- declared types are capitalized
    have hfirst : (Text.capitalize type).toList.head? = some 's' := by
      rw [Target.resolve_of_not_primitive
        (Target.primitive?_eq_none_of_notPrimitive hprimitive)] at hstart
      change _ <+: (Cpp.naming.typeName type).toList at hstart
      rw [Cpp.typeName_eq_capitalize] at hstart
      obtain ⟨rest, hrest⟩ := hstart
      rw [← hrest]
      rfl
    have hlower : 's'.isLower = false := Text.isLower_of_mem_head?_capitalize hfirst
    exact absurd hlower (by decide)
  · obtain ⟨row, hrow, -, hresolve⟩ := Target.exists_row_of_primitive hprimitive
    have hrows : ∀ row ∈ Cpp.primitiveTypes, ¬ "std::vector<".toList <+: row.2.toList := by
      decide +kernel
    rw [hresolve] at hstart
    exact hrows row hrow hstart

/-- The call that reads a property gives the type of its elements exactly if the data member is
declared as a vector of it. -/
theorem Property.readsProperty_readCall {p : Property}
    (hname : ∀ b ∈ Literal.specials, b ∉ p.name.toList) :
    ReadsProperty p (p.memberType .standard, Cpp.naming.memberName p.name) p.readCall := by
  refine .mk ((Literal.denotes_self_iff _).mpr hname) fun t => ?_
  cases hcollection : p.collection with
  | true =>
      have htype : (p.memberType .standard).text =
          "std::vector<" ++ (p.elementType .standard).text ++ ">" := by
        rw [Property.memberType, if_pos hcollection]
        rfl
      rw [if_pos rfl, Option.map_some, htype, Option.some_inj]
      constructor
      · rintro rfl
        rfl
      · intro heq
        apply String.toList_inj.mp
        simpa using congrArg String.toList heq
  | false =>
      have htype : (p.memberType .standard).text = (Target.standard.resolve p.type).text := by
        rw [Property.memberType, if_neg (by simp [hcollection])]
        rfl
      rw [if_neg Bool.false_ne_true, htype]
      exact iff_of_false (by simp) (Target.resolve_ne_vector _ _)

/-! ## The steps of a reader -/

/-- A step reads a field by a call. -/
theorem ReadStep.fieldCall_eq (key member : String) (element : Option TypeExpr) :
    ReadStep.fieldCall key member element =
      (ReadCall.field key member (element.map TypeExpr.text)).text := by
  -- The frame of a call is spelled in different pieces.
  have hframe : ∀ reader : String,
      reader ++ "(jsonValue.at(" ++ Literal.platform key ++ "), object." ++ member ++ ")" =
        reader ++ "(jsonValue.at(U(\"" ++ key ++ "\")), object." ++ member ++ ")" := by
    intro reader
    apply String.toList_inj.mp
    simp [Literal.platform]
  cases element with
  | none => exact hframe "Deserialize"
  | some type =>
      refine (hframe ("Deserialize<" ++ type.text ++ ">")).trans (String.toList_inj.mp ?_)
      rw [Option.map_some, ReadCall.text_field_some]
      simp

/-- The calls of the steps that read an object of a class. -/
theorem calls_classReading (c : ClassDecl) (present : String → Bool) :
    (classReading .standard c).flatMap (ReadStep.calls present) =
      (baseCalls c ++ c.properties.map Property.readCall ++ tagCalls c present).map
        ReadCall.text := by
  have hproperty : ∀ p : Property,
      (p.reading .standard).calls present = [p.readCall.text] := by
    intro p
    rw [Property.reading, ReadStep.calls, ReadStep.fieldCall_eq]
    rfl
  have hproperties : (c.properties.map (·.reading .standard)).flatMap (ReadStep.calls present) =
      (c.properties.map Property.readCall).map ReadCall.text := by
    rw [List.flatMap_map, List.map_map, List.map_eq_flatMap]
    exact List.flatMap_congr fun p _ => hproperty p
  rw [classReading, List.flatMap_append, List.flatMap_append, List.map_append, List.map_append,
    hproperties]
  cases hbase : c.base with
  | some base =>
      simp only [baseCalls, tagCalls, hbase, Naming.baseType, Option.map_some, Option.toList_some,
        Option.isSome_some, if_true, reduceCtorEq, false_and, if_false]
      rfl
  | none =>
      simp only [baseCalls, tagCalls, hbase, Naming.baseType, Option.map_none, Option.toList_none,
        Option.isSome_none, Bool.false_eq_true, if_false, true_and]
      cases hpresent : present "@odata.type" <;>
        simp [ReadStep.calls, ReadStep.fieldCall_eq, hpresent]

/-- The data members of a class start with those of its properties. -/
theorem ClassDecl.fields_dataEntity (c : ClassDecl) :
    (c.dataEntity .standard).declaration.fields =
      c.properties.map (fun p => (p.memberType .standard, Cpp.naming.memberName p.name)) ++
        (if c.base.isSome then [] else rootMembers).flatMap Member.fieldList := by
  refine (List.flatMap_append ..).trans (congrArg (· ++ _) ?_)
  rw [List.flatMap_map, List.map_eq_flatMap]
  rfl

/-! ## Data members as lines -/

/-- The line that declares a data member. -/
def fieldLine (field : TypeExpr × String) : String :=
  field.1.text ++ " " ++ field.2 ++ ";"

theorem isLine_fieldLine {field : TypeExpr × String} (htype : LineFree field.1.text)
    (hname : LineFree field.2) : IsLine (fieldLine field) :=
  Contract.isLine_append (lineFree_append.mpr ⟨lineFree_append.mpr ⟨htype, by decide⟩, hname⟩)
    (by decide) (by decide : ";".toList.getLast? = some ';') (by decide)

/-- The data member that a member of a declaration declares, if it does, stands on a line of its
text. -/
theorem Header.Member.fieldLines_sublist {indent : String} (hindent : LineFree indent) (m : Member)
    (hfields : ∀ field ∈ m.fieldList, LineFree field.1.text ∧ LineFree field.2) :
    (m.fieldList.map fun field => indent ++ fieldLine field).Sublist
      ((Layout.linesOfOne indent 1 (.text (Layout.render indent m.layout))).flatMap
        endedLines) := by
  cases m with
  | field summary type name =>
      obtain ⟨htype, hname⟩ := hfields (type, name) (List.mem_singleton_self _)
      have hline : IsLine (fieldLine (type, name)) := isLine_fieldLine htype hname
      have hplaced : Layout.placed indent 1 (fieldLine (type, name)) =
          indent ++ fieldLine (type, name) := by
        have hne : fieldLine (type, name) ≠ "" := fun heq => by
          simpa [fieldLine] using congrArg String.toList heq
        rw [Layout.placed_of_ne hne]
        simp [Builder.indentation]
      have hended : endedLines (indent ++ fieldLine (type, name)) =
          [indent ++ fieldLine (type, name)] := by
        have hindented : IsLine (indent ++ fieldLine (type, name)) :=
          hplaced ▸ Layout.isLine_placed hindent hline
        rw [endedLines_of_lineFree hindented.free, hindented.dropReturn_eq]
      have hmem : fieldLine (type, name) ∈
          lines (Layout.render indent (Member.field summary type name).layout) := by
        rw [Layout.render_eq, lines_unlines_eq_flatMap]
        refine List.mem_flatMap.mpr ⟨fieldLine (type, name), by simp [Member.layout, fieldLine], ?_⟩
        rw [endedLines_of_lineFree hline.free, hline.dropReturn_eq]
        exact List.mem_singleton_self _
      refine List.singleton_sublist.mpr (List.mem_flatMap.mpr ⟨_, List.mem_map_of_mem hmem, ?_⟩)
      rw [hplaced, hended]
      exact List.mem_singleton_self _
  | enumerators | virtualDestructor | prototypes | constructor | destructor | method =>
      exact List.nil_sublist _

/-- The data members of a declaration stand on lines of its text, in order. -/
theorem Header.Declaration.fieldLines_sublist {indent : String} (hindent : LineFree indent)
    (d : Declaration) (hfields : ∀ field ∈ d.fields, LineFree field.1.text ∧ LineFree field.2) :
    (d.fields.map fun field => indent ++ fieldLine field).Sublist
      (lines (Layout.render indent (d.layout indent))) := by
  have hmembers : ∀ ms : List Member,
      (∀ field ∈ ms.flatMap Member.fieldList, LineFree field.1.text ∧ LineFree field.2) →
        ((ms.flatMap Member.fieldList).map fun field => indent ++ fieldLine field).Sublist
          ((Layout.linesOf indent 1
            (ms.map fun m => .text (Layout.render indent m.layout))).flatMap endedLines) := by
    intro ms hms
    induction ms with
    | nil => exact .refl _
    | cons m rest ih =>
        rw [List.flatMap_cons, List.forall_mem_append] at hms
        rw [List.flatMap_cons, List.map_append, List.map_cons, Layout.linesOf_cons,
          List.flatMap_append]
        exact (m.fieldLines_sublist hindent hms.1).append (ih hms.2)
  have hspaced : (Layout.linesOf indent 1
      (d.members.map fun m => .text (Layout.render indent m.layout))).Sublist
        (Layout.linesOf indent 0 (d.layout indent)) := by
    have hflat := Layout.flatten_sublist_spaced
      (d.members.map fun m => [.text (Layout.render indent m.layout)])
    rw [← List.flatMap_def, ← List.map_eq_flatMap] at hflat
    -- The members stand in the scope of the declaration, behind its label.
    have hscope : (Layout.linesOf indent 1 (d.accessLabel ++ d.memberLayout indent)).Sublist
        (Layout.linesOf indent 0 (d.layout indent)) := by
      have hinfix : (Layout.scope "\x7d;" (d.accessLabel ++ d.memberLayout indent)).linesOfOne
          indent 0 <:+: Layout.linesOf indent 0 (d.layout indent) :=
        Layout.linesOfOne_infix_linesOf (List.mem_append_right _ (List.mem_singleton_self _))
      exact ((List.sublist_append_left _ _).cons _).trans hinfix.sublist
    rw [Layout.linesOf_append] at hscope
    exact ((Layout.linesOf_sublist hflat).trans (List.sublist_append_right _ _)).trans hscope
  rw [Layout.render_eq, lines_unlines_eq_flatMap]
  exact (hmembers d.members hfields).trans (hspaced.flatMap _)

/-! ## Lines -/

section Lines

variable {indent : String} (hindent : LineFree indent)

include hindent

theorem isLine_indented (level : Nat) {s : String} {c : Char} (hs : LineFree s)
    (hlast : s.toList.getLast? = some c) (hc : c ≠ '\r') :
    IsLine (Builder.indentation indent level ++ s) :=
  Contract.isLine_append (Layout.lineFree_indentation hindent level) hs hlast hc

/-- The lines of a block are lines if its inner lines are. -/
theorem isLine_block (level : Nat) {body : List Layout}
    (h : ∀ l ∈ Layout.linesOf indent (level + 1) body, IsLine l) :
    ∀ l ∈ Layout.linesOfOne indent level (.braced body), IsLine l := by
  have hopen := isLine_indented hindent level (s := "\x7b") (c := '\x7b') (by decide) (by decide)
    (by decide)
  have hclose := isLine_indented hindent level (s := "\x7d") (c := '\x7d') (by decide) (by decide)
    (by decide)
  rw [Layout.braced, Layout.linesOfOne, List.forall_mem_cons, List.forall_mem_append,
    List.forall_mem_singleton]
  exact ⟨hopen, h, hclose⟩

theorem isLine_check (level : Nat) {call : String} (hcall : LineFree call) :
    ∀ l ∈ Layout.linesOf indent level (ReadStep.check call), IsLine l := by
  have hreturn := isLine_indented hindent (level + 1) (s := "return false;") (c := ';')
    (by decide) (by decide) (by decide)
  have hguard := isLine_indented hindent level (s := "if (!" ++ call ++ ")") (c := ')')
    (lineFree_append.mpr ⟨lineFree_append.mpr ⟨by decide, hcall⟩, by decide⟩)
    (getLast?_append rfl) (by decide)
  have hbody : ∀ l ∈ Layout.linesOfOne indent level (.braced [.line "return false;"]), IsLine l :=
    isLine_block hindent level (List.forall_mem_singleton.mpr hreturn)
  rw [ReadStep.check, Layout.linesOf_cons, Layout.linesOf_cons, Layout.linesOf_nil,
    List.append_nil, List.forall_mem_append]
  exact ⟨List.forall_mem_singleton.mpr hguard, hbody⟩

/-- A step is written line by line if its calls and its key stand on one line each. -/
theorem isLine_readStep (level : Nat) {step : ReadStep}
    (hcalls : ∀ call ∈ step.calls fun _ => true, LineFree call)
    (hkey : ∀ key member, step = .optional key member → LineFree key) :
    ∀ l ∈ Layout.linesOf indent level step.layout, IsLine l := by
  cases step with
  | base type => exact isLine_check hindent level (hcalls _ (List.mem_singleton_self _))
  | required key member element =>
      exact isLine_check hindent level (hcalls _ (List.mem_singleton_self _))
  | optional key member =>
      have hplatform : LineFree (Literal.platform key) :=
        lineFree_append.mpr ⟨lineFree_append.mpr ⟨by decide, hkey key member rfl⟩, by decide⟩
      have hguard := isLine_indented hindent level (c := ')')
        (s := "if (jsonValue.has_field(" ++ Literal.platform key ++ "))")
        (lineFree_append.mpr ⟨lineFree_append.mpr ⟨by decide, hplatform⟩, by decide⟩)
        (getLast?_append rfl) (by decide)
      have hbody := isLine_block hindent level
        (isLine_check hindent (level + 1) (hcalls _ (List.mem_singleton_self _)))
      rw [ReadStep.layout, Layout.linesOf_cons, Layout.linesOf_cons, Layout.linesOf_nil,
        List.append_nil, List.forall_mem_append]
      exact ⟨List.forall_mem_singleton.mpr hguard, hbody⟩

/-- A reader of objects is written line by line if its signature, its calls and its keys stand on
one line each. -/
theorem isLine_readObject {name : String} (hname : LineFree name) {steps : List ReadStep}
    (hcalls : ∀ call ∈ steps.flatMap (ReadStep.calls fun _ => true), LineFree call)
    (hkeys : ∀ key member, .optional key member ∈ steps → LineFree key) :
    ∀ l ∈ (FreeFunction.readObject name steps).writtenLines indent, IsLine l := by
  have hsignature : IsLine (FreeFunction.readSignature name) :=
    Contract.isLine_append (lineFree_append.mpr ⟨by decide, hname⟩) (by decide)
      (by decide : "& object) noexcept".toList.getLast? = some 't') (by decide)
  have hreturn := isLine_indented hindent 1 (s := "return true;") (c := ';') (by decide)
    (by decide) (by decide)
  have hsteps : ∀ l ∈ Layout.linesOf indent 1 (steps.flatMap fun step => step.layout ++ [.blank]),
      IsLine l := by
    clear hsignature hreturn
    induction steps with
    | nil => exact List.forall_mem_nil _
    | cons step rest ih =>
        rw [List.flatMap_cons, List.forall_mem_append] at hcalls
        have hstep := isLine_readStep hindent 1 hcalls.1 fun key member heq =>
          hkeys key member (heq ▸ List.mem_cons_self)
        have hrest := ih hcalls.2 fun key member hmem =>
          hkeys key member (List.mem_cons_of_mem _ hmem)
        have hblank : IsLine "" := ⟨by decide, by decide⟩
        rw [List.flatMap_cons, Layout.linesOf_append, Layout.linesOf_append,
          List.forall_mem_append, List.forall_mem_append]
        exact ⟨⟨hstep, List.forall_mem_singleton.mpr hblank⟩, hrest⟩
  rw [FreeFunction.writtenLines_readObject, List.forall_mem_cons, List.forall_mem_cons,
    List.forall_mem_append, List.forall_mem_cons, List.forall_mem_singleton]
  exact ⟨hsignature, ⟨by decide, by decide⟩, hsteps, hreturn, ⟨by decide, by decide⟩⟩

end Lines

/-! ## The reader of a class -/

/-- A function reads the objects of a class: it attempts the call for its base, a call for each
property in order and the call for the type tag, and ends at the first that fails.  Its text is put
together from its lines, and has these lines if no name of the class holds line feeds.  The data
members that the calls are for stand on lines of the declaration, in order, if no type holds line
feeds. -/
structure ReadsObject (c : ClassDecl) (e : Entity) (written : List String) : Prop where
  bases : e.declaration.bases.toList = c.base.toList.map fun b => .user (Cpp.naming.typeName b)
  declared : (∀ p ∈ c.properties, LineFree p.type) →
    (e.declaration.fields.map fun field => Target.standard.indent ++ fieldLine field).Sublist
      (lines (e.declarationText .standard))
  signature : written.head? = some ("inline bool Deserialize(const web::json::value& jsonValue, " ++
    e.name ++ "& object) noexcept")
  text : e.functionTexts .standard = [unlines written]
  file : ∀ space, (lines (unlines written)).map (Layout.nested Target.standard.indent) <:+:
    lines (e.fileText .standard space)
  calls : ∃ required : List ReadCall, required.length = c.properties.length ∧
    List.Forall₂ (fun declared call => ReadsProperty declared.1 declared.2 call)
      (c.properties.zip e.declaration.fields) required ∧
    ∀ answers, ∃ attempted result, execute answers written = some (attempted, result) ∧
      StopsAtFailure answers.succeeds
        ((baseCalls c ++ required ++ tagCalls c answers.present).map ReadCall.text)
        attempted result
  lines_eq : LineFree c.name → (∀ base ∈ c.base, LineFree base) →
    (∀ p ∈ c.properties, LineFree p.type) → lines (unlines written) = written

/-- A call stands on one line if its parts do. -/
theorem ReadCall.lineFree_text {key member : String} {element : Option String}
    (hkey : LineFree key) (hmember : LineFree member) (helement : ∀ t ∈ element, LineFree t) :
    LineFree (field key member element).text := by
  have hframe : ∀ {reader : String}, LineFree reader →
      LineFree (reader ++ key ++ "\")), object." ++ member ++ ")") := fun hreader =>
    lineFree_append.mpr ⟨lineFree_append.mpr ⟨lineFree_append.mpr
      ⟨lineFree_append.mpr ⟨hreader, hkey⟩, by decide⟩, hmember⟩, by decide⟩
  cases element with
  | none => exact hframe (by decide)
  | some t =>
      exact hframe (lineFree_append.mpr
        ⟨lineFree_append.mpr ⟨by decide, helement t rfl⟩, by decide⟩)

/-- The only field that is read if it is present is the type tag. -/
theorem eq_of_optional_mem_classReading {c : ClassDecl} {key member : String}
    (h : .optional key member ∈ classReading .standard c) : key = "@odata.type" := by
  rw [classReading, List.mem_append, List.mem_append] at h
  rcases h with (hbase | hproperty) | htag
  · obtain ⟨base, -, heq⟩ := List.mem_map.mp hbase
    cases heq
  · obtain ⟨p, -, heq⟩ := List.mem_map.mp hproperty
    cases heq
  · split at htag
    · cases htag
    · exact (ReadStep.optional.inj (List.mem_singleton.mp htag)).1

/-- The data member of a property stands on one line if the name and the type do. -/
theorem lineFree_field {p : Property} (hp : p.LineFree) :
    LineFree (p.memberType .standard).text ∧ LineFree (Cpp.naming.memberName p.name) := by
  have hmember : LineFree (Cpp.naming.memberName p.name) :=
    freeOf_lineFeed.mp (Target.standard_keepsLines.keeps.safeName (freeOf_lineFeed.mpr hp.1))
  have htype := Target.standard_keepsLines.elementType hp
  refine ⟨?_, hmember⟩
  unfold Property.memberType
  split
  · exact lineFree_append.mpr ⟨lineFree_append.mpr ⟨by decide, htype⟩, by decide⟩
  · exact htype

section LineFree

variable {c : ClassDecl} (hbase : ∀ base ∈ c.base, LineFree base)
  (hproperties : ∀ p ∈ c.properties, p.LineFree)

include hproperties

/-- The calls for properties stand on one line each if their names do. -/
theorem lineFree_readCalls : ∀ call ∈ c.properties.map Property.readCall, LineFree call.text := by
  rw [List.forall_mem_map]
  intro p hp
  obtain ⟨-, hmember⟩ := lineFree_field (hproperties p hp)
  refine ReadCall.lineFree_text (hproperties p hp).1 hmember ?_
  have htype := Target.standard_keepsLines.elementType (hproperties p hp)
  cases p.collection with
  | false => exact fun _ hmem => absurd hmem (Option.not_mem_none _)
  | true =>
      intro t ht
      obtain rfl := Option.mem_some_iff.mp ht
      exact htype

include hbase

/-- The calls of the reader of a class stand on one line each if the names do. -/
theorem lineFree_calls (present : String → Bool) :
    ∀ call ∈ baseCalls c ++ c.properties.map Property.readCall ++ tagCalls c present,
      LineFree call.text := by
  rw [List.forall_mem_append, List.forall_mem_append]
  refine ⟨⟨?_, lineFree_readCalls hproperties⟩, ?_⟩
  · simp only [baseCalls, List.forall_mem_map, Option.mem_toList]
    intro base hmem
    have htype : LineFree (Cpp.naming.typeName base) :=
      Target.standard_keepsLines.typeName (hbase base hmem)
    exact lineFree_append.mpr ⟨lineFree_append.mpr ⟨by decide, htype⟩, by decide⟩
  · intro call hcall
    unfold tagCalls at hcall
    split at hcall
    · obtain rfl := List.mem_singleton.mp hcall
      decide
    · cases hcall

/-- The reader of a class is written line by line if its names hold no line feeds. -/
theorem ClassDecl.isLine_reader (hname : LineFree c.name) :
    ∀ l ∈ (FreeFunction.readObject (Cpp.naming.roleName (.ofClass c) .dataType)
      (classReading .standard c)).writtenLines Target.standard.indent, IsLine l := by
  have htarget := Target.standard_keepsLines
  have helement : ∀ name ∈ (Element.ofClass c).names, FreeOf ['\n'] name :=
    List.forall_mem_singleton.mpr (freeOf_lineFeed.mpr hname)
  have hdeclared : LineFree (Cpp.naming.roleName (.ofClass c) .dataType) :=
    freeOf_lineFeed.mp (htarget.keeps.roleName helement .dataType)
  refine isLine_readObject htarget.indent hdeclared ?_ fun key member hmem => ?_
  · rw [calls_classReading, List.forall_mem_map]
    exact lineFree_calls hbase hproperties _
  · rw [eq_of_optional_mem_classReading hmem]
    decide

end LineFree

/-- The calls that read properties belong to the data members that are declared for these. -/
theorem forall₂_readsProperty {ps : List Property}
    (hnames : ∀ p ∈ ps, ∀ b ∈ Literal.specials, b ∉ p.name.toList)
    (additional : List (TypeExpr × String)) :
    List.Forall₂ (fun declared call => ReadsProperty declared.1 declared.2 call)
      (ps.zip (ps.map (fun p => (p.memberType .standard, Cpp.naming.memberName p.name)) ++
        additional))
      (ps.map Property.readCall) := by
  induction ps with
  | nil => exact .nil
  | cons p rest ih =>
      rw [List.forall_mem_cons] at hnames
      exact .cons (Property.readsProperty_readCall hnames.1) (ih hnames.2)

/-- The data type of a class comes with a function that reads its objects, if the names of its
properties denote themselves in literals. -/
theorem Descriptor.dataType_readsObject {serviceUrl : String} {d : Descriptor} {c : ClassDecl}
    (helement : d.element = .ofClass c) (hrole : d.role = .dataType)
    (hnames : ∀ p ∈ c.properties, ∀ b ∈ Literal.specials, b ∉ p.name.toList) :
    ∃ e f, d.render (Model.standardSetting serviceUrl) = .ok e ∧ e.functions = [f] ∧
      ReadsObject c e (f.writtenLines Target.standard.indent) := by
  obtain ⟨element, role, haccepts⟩ := d
  obtain rfl : element = .ofClass c := helement
  obtain rfl : role = .dataType := hrole
  have hindent : IsIndentation Target.standard.indent := by decide
  refine ⟨c.dataEntity .standard, _, rfl, rfl, ?_⟩
  constructor
  case bases =>
    change ((c.base.map Cpp.naming.typeName).map TypeExpr.user).toList = _
    cases c.base <;> rfl
  case declared =>
    intro htypes
    refine Declaration.fieldLines_sublist hindent.lineFree _ ?_
    rw [c.fields_dataEntity, List.forall_mem_append, List.forall_mem_map]
    refine ⟨fun p hp => lineFree_field ⟨hnames p hp '\n' (by decide), htypes p hp⟩, ?_⟩
    split
    · exact List.forall_mem_nil _
    · decide
  case signature => rw [FreeFunction.writtenLines_readObject]; rfl
  case text => exact congrArg (fun s => [s]) (Layout.render_eq _ _)
  case file =>
    intro space
    have hholds : Layout.HoldsText (Layout.render Target.standard.indent _)
        ((c.dataEntity .standard).fileLayout .standard space) :=
      Entity.holdsText_function (List.mem_singleton_self _) space
    rw [Layout.render_eq] at hholds
    exact hholds.infix_lines_render hindent.lineFree List.infix_rfl
  case calls =>
    refine ⟨c.properties.map Property.readCall, List.length_map _, ?_, ?_⟩
    · rw [c.fields_dataEntity]
      exact forall₂_readsProperty hnames _
    · intro answers
      rw [← calls_classReading]
      exact FreeFunction.execute_readObject hindent _ _ answers
  case lines_eq =>
    intro hname hbase htypes
    have hproperties : ∀ p ∈ c.properties, p.LineFree := fun p hp =>
      ⟨hnames p hp '\n' (by decide), htypes p hp⟩
    exact lines_unlines_of_isLine (ClassDecl.isLine_reader hbase hproperties hname)

/-- Songs are works, with a property called like a reserved word and one with many values. -/
def songClass : ClassDecl where
  name := "song"
  kind := .entity
  base := some "work"
  properties := [⟨"new", "boolean", false, false, none, "song"⟩,
    ⟨"singers", "person", true, false, none, "song"⟩]

/-- The data type of songs comes with a function that reads songs. -/
theorem songClass_readsObject :
    (∀ p ∈ songClass.properties, ∀ b ∈ Literal.specials, b ∉ p.name.toList) ∧
      ∃ e f, (⟨.ofClass songClass, .dataType, rfl⟩ : Descriptor).render
          (Model.standardSetting Model.defaultServiceUrl) = .ok e ∧
        e.functions = [f] ∧
          ReadsObject songClass e (f.writtenLines Target.standard.indent) := by
  have hnames : ∀ p ∈ songClass.properties, ∀ b ∈ Literal.specials, b ∉ p.name.toList := by
    simp [songClass, Literal.specials]
  exact ⟨hnames, Descriptor.dataType_readsObject rfl rfl hnames⟩

end SdkHeaders
