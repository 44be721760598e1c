import SdkHeaders.Document.Load
import SdkHeaders.Proofs.PlainJson
import SdkHeaders.Proofs.QuotedNames
import SdkHeaders.Proofs.Violations

/-!
# Labels of repeated names

The two labels of a fault that tells of a repeated name, and the places of the text where the two
elements of this name are declared.

Main results:

- Definition `ModelFile.namesIn` lists the names that must differ from each other, and definition
  `ModelFile.rename` gives another name to one of their elements.
- Definition `SourceFile.StandsAt` says that the name of an element is written at an offset: another
  plain text there is the name of this element, and nothing else changes.
- Theorem `SourceFile.duplicate_labels`: the labels are at the two declarations exactly if these are
  the first two quoted occurrences of the name in the text.
- Theorem `bossFile_labels_type`: there are documents whose second label is at the type of a
  property.
-/

namespace SdkHeaders

/-! ## Names that must differ -/

/-- The elements whose names must differ from each other. -/
inductive NameScope where
  /-- The enumerations and then the classes of a file. -/
  | types
  /-- The members of an enumeration, given by its place. -/
  | members (place : Nat)
  /-- The properties of a class, given by its place. -/
  | properties (place : Nat)

namespace NameScope

/-- How a fault calls the elements. -/
def kind : NameScope → String
  | types => "type"
  | members _ => "enum member"
  | properties _ => "property"

/-- The violation by a repeated name. -/
def violation : NameScope → String → Violation
  | types, name => .duplicateType name
  | members _, name => .duplicateMember name
  | properties _, name => .duplicateProperty name

end NameScope

/-- The enumeration with another name for one of its members. -/
def EnumDecl.renameMember (e : EnumDecl) (k : Nat) (name : String) : EnumDecl :=
  { e with members := e.members.modify k fun m => { m with name := name } }

/-- The class with another name for one of its properties. -/
def ClassDecl.renameProperty (c : ClassDecl) (k : Nat) (name : String) : ClassDecl :=
  { c with properties := c.properties.modify k fun p => { p with name := name } }

namespace ModelFile

/-- The names of the elements of a scope. -/
def namesIn (file : ModelFile) : NameScope → List String
  | .types => file.typeNames
  | .members place => (file.enums[place]?.map fun e => e.members.map EnumMember.name).getD []
  | .properties place => (file.classes[place]?.map fun c => c.properties.map Property.name).getD []

/-- The file with another name for one element of a scope. -/
def rename (file : ModelFile) (scope : NameScope) (k : Nat) (name : String) : ModelFile :=
  match scope with
  | .types =>
      if k < file.enums.length then
        { file with enums := file.enums.modify k fun e => { e with name := name } }
      else
        { file with
          classes := file.classes.modify (k - file.enums.length) fun c => { c with name := name } }
  | .members place => { file with enums := file.enums.modify place (·.renameMember k name) }
  | .properties place =>
      { file with classes := file.classes.modify place (·.renameProperty k name) }

/-- To change an element is to replace what it is mapped to. -/
theorem map_modify_eq_set {α : Type} {change : α → α} {nameOf : α → String} (declared : List α)
    (k : Nat) (name : String) (h : ∀ a, nameOf (change a) = name) :
    (declared.modify k change).map nameOf = (declared.map nameOf).set k name := by
  refine List.ext_getElem? fun m => ?_
  rw [List.getElem?_map, List.getElem?_modify, List.getElem?_set, List.getElem?_map,
    List.length_map]
  by_cases hm : k = m
  · subst hm
    by_cases hk : k < declared.length
    · simp [h, hk]
    · simp [hk]
  · simp [hm]

/-- Another name for one element of a scope replaces its name among the names of the scope. -/
theorem namesIn_rename (file : ModelFile) (scope : NameScope) (k : Nat) (name : String) :
    (file.rename scope k name).namesIn scope = (file.namesIn scope).set k name := by
  cases scope with
  | types =>
      by_cases hk : k < file.enums.length
      · have hset : (file.enums.modify k fun e => { e with name := name }).map EnumDecl.name =
            (file.enums.map EnumDecl.name).set k name :=
          map_modify_eq_set file.enums k name fun _ => rfl
        simp only [rename, if_pos hk, namesIn, typeNames]
        rw [hset, List.set_append_left _ _ (by simpa using hk)]
      · have hset : (file.classes.modify (k - file.enums.length) fun c =>
            { c with name := name }).map ClassDecl.name =
              (file.classes.map ClassDecl.name).set (k - file.enums.length) name :=
          map_modify_eq_set file.classes (k - file.enums.length) name fun _ => rfl
        simp only [rename, if_neg hk, namesIn, typeNames]
        rw [hset, List.set_append_right _ _ (by simpa using hk), List.length_map]
  | members place =>
      simp only [rename, namesIn, List.getElem?_modify_eq]
      cases file.enums[place]? with
      | none => rfl
      | some e => exact map_modify_eq_set e.members k name fun _ => rfl
  | properties place =>
      simp only [rename, namesIn, List.getElem?_modify_eq]
      cases file.classes[place]? with
      | none => rfl
      | some c => exact map_modify_eq_set c.properties k name fun _ => rfl

/-- A violation that is told as a repeated name is one of some scope. -/
theorem Breaks.exists_repeatsAt {declared : ModelFile} {violation : Violation}
    (h : declared.Breaks violation) {file : SourceFile} {src kind name : String}
    {first second : Option Span}
    (hlocate : file.locate violation = .duplicate src kind name first second) :
    ∃ scope i j, violation = scope.violation name ∧ name ≠ "" ∧
      RepeatsAt (declared.namesIn scope) i j name := by
  cases h with
  | blankSpace => cases hlocate
  | unknownBase => cases hlocate
  | baseCycle => cases hlocate
  | typeAgain hname hrepeats =>
      cases hlocate
      exact ⟨.types, _, _, rfl, hname, hrepeats⟩
  | ofEnum he hbreaks =>
      cases hbreaks with
      | unnamed => cases hlocate
      | unnamedMember => cases hlocate
      | shared => cases hlocate
      | @memberAgain i j _ hname hrepeats =>
          cases hlocate
          obtain ⟨place, hplace⟩ := List.mem_iff_getElem?.mp he
          refine ⟨.members place, i, j, rfl, hname, ?_⟩
          rwa [namesIn, hplace]
  | ofClass hc hbreaks =>
      cases hbreaks with
      | unnamed => cases hlocate
      | unnamedProperty => cases hlocate
      | untyped => cases hlocate
      | @propertyAgain i j _ hname hrepeats =>
          cases hlocate
          obtain ⟨place, hplace⟩ := List.mem_iff_getElem?.mp hc
          refine ⟨.properties place, i, j, rfl, hname, ?_⟩
          rwa [namesIn, hplace]

end ModelFile

/-! ## The first two occurrences -/

namespace Source

variable {text name : String} {p q : Nat}

/-- The first two places of a quoted name that do not overlap. -/
structure FirstTwo (text name : String) (p q : Nat) : Prop where
  leftmost : ∀ r, QuotedAt text name r → p ≤ r
  behind : p + (name.utf8ByteSize + 2) ≤ q
  next : ∀ r, QuotedAt text name r → p + (name.utf8ByteSize + 2) ≤ r → q ≤ r

theorem findSpan_eq_iff (hname : name ≠ "") {n offset : Nat} :
    findSpan text name n = some ⟨offset + 1, name.utf8ByteSize⟩ ↔
      (quotedOccurrences text name)[n]? = some offset := by
  rw [findSpan_eq_some_iff]
  simp [hname]

/-- Two texts with starts of the same size have the same starts. -/
theorem eq_of_append_eq {a b c d : String} (h : a ++ b = c ++ d)
    (hsize : a.utf8ByteSize = c.utf8ByteSize) : a = c ∧ b = d := by
  have hbytes := congrArg String.toByteArray h
  rw [String.toByteArray_append, String.toByteArray_append] at hbytes
  obtain rfl : a = c := String.toByteArray_inj.mp (ByteArray.append_inj_left hbytes hsize)
  exact ⟨rfl, (String.append_right_inj a).mp h⟩

/-- The two labels for a name are at two of its places exactly if these are the first two. -/
theorem findSpan_pair_iff (hname : name ≠ "") (hp : QuotedAt text name p)
    (hq : QuotedAt text name q) :
    (findSpan text name 0 = some ⟨p + 1, name.utf8ByteSize⟩ ∧
      findSpan text name 1 = some ⟨q + 1, name.utf8ByteSize⟩) ↔ FirstTwo text name p q := by
  rw [findSpan_eq_iff hname, findSpan_eq_iff hname]
  constructor
  · rintro ⟨hfirst, hsecond⟩
    refine ⟨?_, add_le_of_lt hfirst hsecond Nat.zero_lt_one, ?_⟩
    · intro r hr
      obtain ⟨leftmost, hleftmost, hle⟩ := le_of_quotedAt hr
      rwa [Option.some.inj (hfirst.symm.trans hleftmost)]
    · intro r hr hbehind
      obtain ⟨next, hnext, hle⟩ := exists_next_of_quotedAt hfirst hr hbehind
      rwa [Option.some.inj (hsecond.symm.trans hnext)]
  · intro h
    obtain ⟨leftmost, hfirst, hle⟩ := le_of_quotedAt hp
    obtain rfl : leftmost = p :=
      Nat.le_antisymm hle (h.leftmost _ (quotedAt_of_mem (List.mem_of_getElem? hfirst)))
    obtain ⟨next, hsecond, hle⟩ := exists_next_of_quotedAt hfirst hq h.behind
    obtain rfl : next = q :=
      Nat.le_antisymm hle (h.next _ (quotedAt_of_mem (List.mem_of_getElem? hsecond))
        (add_le_of_lt hfirst hsecond Nat.zero_lt_one))
    exact ⟨hfirst, hsecond⟩

end Source

/-! ## Places of declarations -/

namespace SourceFile

/-- The name of an element is written between double quotes at an offset of the text: any plain text
that is written there instead is the name of this element, and nothing else changes. -/
def StandsAt (file : SourceFile) (format : Format) (declared : ModelFile) (scope : NameScope)
    (k offset : Nat) : Prop :=
  ∃ before name after, (declared.namesIn scope)[k]? = some name ∧
    file.text = before ++ "\"" ++ name ++ "\"" ++ after ∧ offset = before.utf8ByteSize ∧
    ∀ other, Json.IsPlain other →
      ({ file with text := before ++ "\"" ++ other ++ "\"" ++ after } : SourceFile).decode format =
        some (declared.rename scope k other)

variable {file : SourceFile} {format : Format} {declared : ModelFile} {scope : NameScope}

/-- The name of an element is quoted where it is written. -/
theorem StandsAt.quotedAt {k offset : Nat} {name : String}
    (h : file.StandsAt format declared scope k offset)
    (hname : (declared.namesIn scope)[k]? = some name) : Source.QuotedAt file.text name offset := by
  obtain ⟨before, other, after, hother, htext, hoffset, -⟩ := h
  obtain rfl : name = other := Option.some.inj (hname.symm.trans hother)
  exact ⟨before, after, htext, hoffset⟩

/-- The text around the place of a name is the only one to put other names into. -/
theorem StandsAt.decode_eq {k : Nat} {before name after other : String}
    (h : file.StandsAt format declared scope k before.utf8ByteSize)
    (hname : (declared.namesIn scope)[k]? = some name)
    (htext : file.text = before ++ "\"" ++ name ++ "\"" ++ after) (hother : Json.IsPlain other) :
    (SourceFile.mk file.name (before ++ "\"" ++ other ++ "\"" ++ after)).decode format =
      some (declared.rename scope k other) := by
  obtain ⟨front, found, back, hfound, hsplit, hsize, hdecode⟩ := h
  obtain rfl : name = found := Option.some.inj (hname.symm.trans hfound)
  have hparts : before ++ ("\"" ++ name ++ "\"" ++ after) =
      front ++ ("\"" ++ name ++ "\"" ++ back) := by
    simpa only [String.append_assoc] using htext.symm.trans hsplit
  obtain ⟨rfl, hrest⟩ := Source.eq_of_append_eq hparts hsize
  obtain rfl : after = back := (String.append_right_inj _).mp hrest
  exact hdecode other hother

/-- Two elements of a scope that have the same name are written at different places. -/
theorem StandsAt.ne {i j p q : Nat} {name : String}
    (hp : file.StandsAt format declared scope i p) (hq : file.StandsAt format declared scope j q)
    (hi : (declared.namesIn scope)[i]? = some name)
    (hj : (declared.namesIn scope)[j]? = some name) (hne : i ≠ j) : p ≠ q := by
  rintro rfl
  obtain ⟨before, after, htext, rfl⟩ := hp.quotedAt hi
  -- another name at this place would be the name of both elements
  obtain ⟨other, hplain, hother⟩ : ∃ other, Json.IsPlain other ∧ other ≠ name := by
    by_cases hname : name = "a"
    · exact ⟨"b", by decide, by rw [hname]; decide⟩
    · exact ⟨"a", by decide, Ne.symm hname⟩
  have hboth := (hp.decode_eq hi htext hplain).symm.trans (hq.decode_eq hj htext hplain)
  have hnames := congrArg (fun d => (d.namesIn scope)[i]?) (Option.some.inj hboth)
  simp only [ModelFile.namesIn_rename] at hnames
  rw [List.getElem?_set_self (List.getElem?_eq_some_iff.mp hi).1, List.getElem?_set_ne hne.symm,
    hi] at hnames
  exact hother (Option.some.inj hnames)

/-- If a document is rejected for a repeated name, then it declares two elements of one scope with
this name, and no name of the scope repeats before the second one.  The labels are at the names of
these two declarations exactly if the declarations are the first two places where the text holds the
name in quotes, be it as the name of an element, as a type, as a base or as anything else. -/
theorem duplicate_labels (hdecode : file.decode format = some declared) {src kind name : String}
    {first second : Option Span}
    (h : file.load format = .error (.duplicate src kind name first second)) :
    ∃ scope i j, kind = scope.kind ∧ RepeatsAt (declared.namesIn scope) i j name ∧
      ∀ p q, file.StandsAt format declared scope i p → file.StandsAt format declared scope j q →
        p ≠ q ∧
        ((first = some ⟨p + 1, name.utf8ByteSize⟩ ∧ second = some ⟨q + 1, name.utf8ByteSize⟩) ↔
          Source.FirstTwo file.text name p q) ∧
        ((first = some ⟨q + 1, name.utf8ByteSize⟩ ∧ second = some ⟨p + 1, name.utf8ByteSize⟩) ↔
          Source.FirstTwo file.text name q p) := by
  simp only [load, hdecode] at h
  cases hvalidate : declared.validate with
  | ok _ =>
      rw [hvalidate] at h
      cases h
  | error violation =>
      rw [hvalidate] at h
      have hlocate : file.locate violation = .duplicate src kind name first second :=
        Except.error.inj h
      obtain ⟨scope, i, j, rfl, hname, hrepeats⟩ :=
        (ModelFile.breaks_of_validate hvalidate).exists_repeatsAt hlocate
      have hspans : file.locate (scope.violation name) = file.duplicateName scope.kind name := by
        cases scope <;> rfl
      cases hspans.symm.trans hlocate
      refine ⟨scope, i, j, rfl, hrepeats, ?_⟩
      intro p q hp hq
      have hfirst := hp.quotedAt hrepeats.first
      have hsecond := hq.quotedAt hrepeats.second
      exact ⟨hp.ne hq hrepeats.first hrepeats.second hrepeats.lt.ne,
        Source.findSpan_pair_iff hname hfirst hsecond,
        Source.findSpan_pair_iff hname hsecond hfirst⟩

end SourceFile

/-! ## A label at a type -/

/-- A document about two classes, the first of which has a boss of some type. -/
def bossText (first type second : String) : String :=
  "[\"demo\", [], [[\"" ++ first ++ "\", \"entity\", null, [[\"boss\", \"" ++ type ++
    "\"]]], [\"" ++ second ++ "\"]]]"

/-- The tree of the document about two classes. -/
def bossTree (first type second : String) : Node :=
  .list [.text "demo", .list [],
    .list [.list [.text first, .text "entity", .null, .list [.list [.text "boss", .text type]]],
      .list [.text second]]]

/-- What the document about two classes declares. -/
def bossDeclared (first type second : String) : ModelFile where
  space := "demo"
  enums := []
  classes :=
    [⟨first, .entity, none, [⟨"boss", type, false, false, none, ""⟩]⟩, ⟨second, .entity, none, []⟩]

theorem read_bossText {first type second : String} (hfirst : Json.IsPlain first)
    (htype : Json.IsPlain type) (hsecond : Json.IsPlain second) :
    Json.read (bossText first type second) = some (bossTree first type second) := by
  have hboss := Json.readsItems_next (Json.readsValue_text (s := "boss") (by decide))
    (Json.readsItems_last (Json.readsValue_text htype).space)
  have hbosses := Json.readsItems_last (Json.readsValue_list hboss)
  have huser := Json.readsItems_next (Json.readsValue_text hfirst)
    (Json.readsItems_next (Json.readsValue_text (s := "entity") (by decide)).space
      (Json.readsItems_next Json.readsValue_null.space
        (Json.readsItems_last (Json.readsValue_list hbosses).space)))
  have hother := Json.readsItems_last (Json.readsValue_text hsecond)
  have hclasses := Json.readsItems_next (Json.readsValue_list huser)
    (Json.readsItems_last (Json.readsValue_list hother).space)
  have hfile := Json.readsItems_next (Json.readsValue_text (s := "demo") (by decide))
    (Json.readsItems_next Json.readsValue_nil.space
      (Json.readsItems_last (Json.readsValue_list hclasses).space))
  refine Json.read_of_readsValue (Json.readsValue_list hfile) (String.toList_inj.mp ?_)
  unfold bossText
  simp

/-- The document about two classes with plain names declares these classes. -/
theorem decode_bossText {first type second text : String} (hfirst : Json.IsPlain first)
    (htype : Json.IsPlain type) (hsecond : Json.IsPlain second)
    (htext : text.toList = (bossText first type second).toList) (src : String) :
    (SourceFile.mk src text).decode .json = some (bossDeclared first type second) := by
  obtain rfl := String.toList_inj.mp htext
  rw [SourceFile.decode, Format.read, read_bossText hfirst htype hsecond]
  rfl

/-- A document that declares users twice, where users have users as bosses. -/
def bossFile : SourceFile where
  name := "model.json"
  text := bossText "user" "user" "user"

/-- The two classes of users. -/
def bossUsers : ModelFile :=
  bossDeclared "user" "user" "user"

theorem decode_bossFile : bossFile.decode .json = some bossUsers :=
  decode_bossText (by decide) (by decide) (by decide) rfl bossFile.name

theorem load_bossFile :
    bossFile.load .json =
      .error (.duplicate "model.json" "type" "user" (some ⟨16, 4⟩) (some ⟨50, 4⟩)) := by
  decide +kernel

/-- The name of the first class stands before its kind. -/
theorem bossFile_standsAt_first : bossFile.StandsAt .json bossUsers .types 0 15 := by
  refine ⟨"[\"demo\", [], [[", "user",
    ", \"entity\", null, [[\"boss\", \"user\"]]], [\"user\"]]]", rfl, by decide +kernel,
    by decide +kernel, ?_⟩
  intro other hother
  refine decode_bossText hother (by decide) (by decide) ?_ bossFile.name
  unfold bossText
  simp

/-- The name of the second class stands at the end of the document. -/
theorem bossFile_standsAt_second : bossFile.StandsAt .json bossUsers .types 1 61 := by
  refine ⟨"[\"demo\", [], [[\"user\", \"entity\", null, [[\"boss\", \"user\"]]], [", "user", "]]]",
    rfl, by decide +kernel, by decide +kernel, ?_⟩
  intro other hother
  refine decode_bossText (by decide) (by decide) hother ?_ bossFile.name
  unfold bossText
  simp

/-- The type of the boss is not the name of the second class. -/
theorem bossFile_not_standsAt_type : ¬ bossFile.StandsAt .json bossUsers .types 1 49 := by
  intro h
  have hsize : "[\"demo\", [], [[\"user\", \"entity\", null, [[\"boss\", ".utf8ByteSize = 49 := by
    decide +kernel
  have htext : bossFile.text = "[\"demo\", [], [[\"user\", \"entity\", null, [[\"boss\", " ++
      "\"" ++ "user" ++ "\"" ++ "]]], [\"user\"]]]" := by decide +kernel
  rw [← hsize] at h
  have hplain : Json.IsPlain "vase" := by decide
  -- with a vase there, the boss of users is a vase, and the second class still that of users
  exact absurd (h.decode_eq rfl htext hplain) (by decide +kernel)

/-- The second label is at the type of the boss, which declares nothing. -/
theorem bossFile_labels_type :
    bossFile.decode .json = some bossUsers ∧
      RepeatsAt (bossUsers.namesIn .types) 0 1 "user" ∧
      bossFile.StandsAt .json bossUsers .types 0 15 ∧
      bossFile.StandsAt .json bossUsers .types 1 61 ∧
      bossFile.load .json =
        .error (.duplicate "model.json" "type" "user" (some ⟨16, 4⟩) (some ⟨50, 4⟩)) ∧
      ¬ bossFile.StandsAt .json bossUsers .types 1 49 :=
  ⟨decode_bossFile, ⟨Nat.zero_lt_one, rfl, rfl, by decide⟩, bossFile_standsAt_first,
    bossFile_standsAt_second, load_bossFile, bossFile_not_standsAt_type⟩

/-- The two classes of users are not the first two places of their name. -/
theorem bossFile_duplicate_labels :
    bossFile.decode .json = some bossUsers ∧
      bossFile.load .json =
        .error (.duplicate "model.json" "type" "user" (some ⟨16, 4⟩) (some ⟨50, 4⟩)) ∧
      ¬ Source.FirstTwo bossFile.text "user" 15 61 := by
  refine ⟨decode_bossFile, load_bossFile, ?_⟩
  intro hfirst
  obtain ⟨scope, i, j, hkind, hrepeats, hlabels⟩ :=
    SourceFile.duplicate_labels decode_bossFile load_bossFile
  cases scope with
  | members _ => exact absurd hkind (by simp [NameScope.kind])
  | properties _ => exact absurd hkind (by simp [NameScope.kind])
  | types =>
      have hj : j < 2 := (List.getElem?_eq_some_iff.mp hrepeats.second).1
      obtain ⟨rfl, rfl⟩ : i = 0 ∧ j = 1 := by
        have hlt := hrepeats.lt
        omega
      have hiff := (hlabels 15 61 bossFile_standsAt_first bossFile_standsAt_second).2.1
      exact absurd (hiff.mpr hfirst).2 (by decide)

end SdkHeaders
