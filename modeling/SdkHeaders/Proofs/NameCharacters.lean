import SdkHeaders.Header.Data

/-!
# Characters of names

Which characters can occur in the names and texts that are derived from those of a model.  A change
of case maps nothing but letters to letters, and what is put around a name consists of letters, so
that signs such as line breaks, slashes and braces occur in a derived name only if they occur in a
name that it is derived from.

Main results:

- Theorems `Text.not_mem_upper` and `Text.not_mem_lower`: only a sign is mapped to this sign.
- Predicate `Text.FreeOf` says that a text holds none of some signs, and theorems
  `Text.FreeOf.capitalize`, `Text.FreeOf.splitWords` and `Text.FreeOf.titleizeNamespace` that
  respelled texts hold none.
- Structures `Naming.Keeps` and `Target.Keeps` say that conventions and a target add no signs to
  names, and theorem `Naming.Keeps.roleName` that the names of declarations hold none.
- Theorem `Cpp.naming_keeps`: the usual conventions add no sign other than an underscore.
-/

namespace SdkHeaders

open Header

namespace Text

/-! ## Letter case -/

/-- A character is a sign if it is an ASCII character other than a letter. -/
def IsSign (c : Char) : Prop :=
  c ≠ '\x00' ∧ c.toNat < 128 ∧ c.isAlpha = false

instance (c : Char) : Decidable (IsSign c) :=
  inferInstanceAs (Decidable (_ ∧ _))

/-- All characters of a list are signs. -/
def AreSigns (marks : List Char) : Prop :=
  ∀ mark ∈ marks, IsSign mark

-- The characters of the list are tried one by one, and not all characters that there are.
instance (marks : List Char) : Decidable (AreSigns marks) :=
  List.decidableBAll IsSign marks

/-- The code is that of a letter or lies beyond ASCII. -/
def IsLetterCode (code : Nat) : Prop :=
  128 ≤ code ∨ (Char.ofNat code).isAlpha = true

instance (code : Nat) : Decidable (IsLetterCode code) :=
  inferInstanceAs (Decidable (_ ∨ _))

section Mapping

variable {mark : Char} (hmark : IsSign mark)

include hmark

theorem ofNat_ne_sign {code : Nat} (h : IsLetterCode code) : Char.ofNat code ≠ mark := by
  intro heq
  rcases h with hcode | hletter
  · by_cases hvalid : code.isValidChar
    · have hofNat : Char.ofNat code = Char.ofNatAux code hvalid := dif_pos hvalid
      have hmarkCode : code = mark.toNat := congrArg Char.toNat (hofNat.symm.trans heq)
      have hascii := hmark.2.1
      omega
    · have hzero : Char.ofNat code = '\x00' := dif_neg hvalid
      exact hmark.1 (heq.symm.trans hzero)
  · rw [heq, hmark.2.2] at hletter
    cases hletter

/-- Tables with images that are no signs map nothing beyond ASCII to a sign. -/
theorem not_mem_mapCode {expansions : List (Nat × List Nat)} {runs : List CaseRun}
    (hexpansions : ∀ row ∈ expansions, ∀ code ∈ row.2, IsLetterCode code)
    (hruns : ∀ run ∈ runs, 128 ≤ run.image ∨ run.first = run.last ∧ IsLetterCode run.image)
    {code : Nat} (hcode : 128 ≤ code) : mark ∉ mapCode expansions runs code := by
  have himages : ∀ codes, expansions.lookup code = some codes →
      ∀ c ∈ codes, Char.ofNat c ≠ mark := by
    intro codes hcodes c hc
    obtain ⟨before, after, heq, -⟩ := List.lookup_eq_some_iff.mp hcodes
    exact ofNat_ne_sign hmark (hexpansions (code, codes) (by simp [heq]) c hc)
  have hshift : IsLetterCode (shiftCode runs code) := by
    unfold shiftCode
    split
    · next run hrun =>
        have hholds := List.find?_some hrun
        simp only [CaseRun.holds, Bool.and_eq_true, decide_eq_true_eq] at hholds
        unfold CaseRun.apply
        rcases hruns run (List.mem_of_find?_eq_some hrun) with himage | ⟨hsingle, himage⟩
        · exact .inl (by omega)
        · have hfirst : code - run.first = 0 := by omega
          rwa [hfirst, Nat.add_zero]
    · exact .inl hcode
  unfold mapCode
  split
  · simpa using (ofNat_ne_sign hmark (.inl hcode)).symm
  · next first more hcodes =>
      have hall := himages _ hcodes
      intro hmem
      rcases List.mem_cons.mp hmem with heq | hmem
      · exact hall first List.mem_cons_self heq.symm
      · obtain ⟨c, hc, heq⟩ := List.mem_map.mp hmem
        exact hall c (List.mem_cons_of_mem first hc) heq
  · simpa using (ofNat_ne_sign hmark hshift).symm

/-- A case mapping that is given by a function on ASCII and by tables beyond it maps only a sign to
this sign if neither of them maps anything else to it. -/
theorem not_mem_case {change : Char → Char} {expansions : List (Nat × List Nat)}
    {runs : List CaseRun}
    (hascii : ∀ code < 128, change (Char.ofNat code) = Char.ofNat code ∨
      (change (Char.ofNat code)).isAlpha = true)
    (hexpansions : ∀ row ∈ expansions, ∀ code ∈ row.2, IsLetterCode code)
    (hruns : ∀ run ∈ runs, 128 ≤ run.image ∨ run.first = run.last ∧ IsLetterCode run.image)
    {c : Char} (h : c ≠ mark) :
    mark ∉ if c.toNat < 128 then [change c] else mapCode expansions runs c.toNat := by
  split
  · next hlow =>
      have hchange := hascii c.toNat hlow
      rw [Char.ofNat_toNat] at hchange
      rw [List.mem_singleton]
      rintro rfl
      rcases hchange with hsame | hletter
      · exact h hsame.symm
      · rw [hmark.2.2] at hletter
        cases hletter
  · exact not_mem_mapCode hmark hexpansions hruns (by omega)

/-- Only a sign has it in its capital form. -/
theorem not_mem_upper {c : Char} (h : c ≠ mark) : mark ∉ upper c :=
  not_mem_case hmark (by decide) (by decide +kernel) (by decide +kernel) h

/-- Only a sign has it in its small form. -/
theorem not_mem_lower {c : Char} (h : c ≠ mark) : mark ∉ lower c :=
  not_mem_case hmark (by decide) (by decide +kernel) (by decide +kernel) h

end Mapping

/-! ## Texts without some signs -/

/-- A text holds none of some characters. -/
def FreeOf (marks : List Char) (s : String) : Prop :=
  ∀ mark ∈ marks, mark ∉ s.toList

instance (marks : List Char) (s : String) : Decidable (FreeOf marks s) :=
  List.decidableBAll (fun mark => mark ∉ s.toList) marks

variable {marks : List Char} {s t : String}

theorem freeOf_singleton {mark : Char} : FreeOf [mark] s ↔ mark ∉ s.toList :=
  List.forall_mem_singleton

theorem freeOf_append : FreeOf marks (s ++ t) ↔ FreeOf marks s ∧ FreeOf marks t := by
  simp [FreeOf, not_or, forall_and]

theorem subset_of_mem_splitAtChar {separator : Char} {cs piece : List Char}
    (h : piece ∈ splitAtChar separator cs) : piece ⊆ cs := by
  induction cs generalizing piece with
  | nil =>
      rw [List.mem_singleton.mp h]
      exact List.nil_subset _
  | cons c rest ih =>
      unfold splitAtChar at h
      split at h
      · rcases List.mem_cons.mp h with rfl | h
        · exact List.nil_subset _
        · exact List.subset_cons_of_subset c (ih h)
      · split at h
        · rw [List.mem_singleton.mp h]
          exact List.cons_subset_cons c (List.nil_subset _)
        · next part parts hparts =>
            rcases List.mem_cons.mp h with rfl | h
            · exact List.cons_subset_cons c (ih (hparts ▸ List.mem_cons_self))
            · exact List.subset_cons_of_subset c (ih (hparts ▸ List.mem_cons_of_mem part h))

namespace FreeOf

theorem append (h : FreeOf marks s) (h' : FreeOf marks t) : FreeOf marks (s ++ t) :=
  freeOf_append.mpr ⟨h, h'⟩

/-- What a literal holds is read off its characters. -/
theorem ofList {cs : List Char} (h : cs.any marks.contains = false) :
    FreeOf marks (String.ofList cs) := by
  intro mark hmark hmem
  rw [String.toList_ofList] at hmem
  rw [List.any_eq_false] at h
  exact h mark hmem (List.contains_iff_mem.mpr hmark)

/-- A text between two literals. -/
theorem enclosed {before after : List Char} (h : FreeOf marks s)
    (hbefore : before.any marks.contains = false) (hafter : after.any marks.contains = false) :
    FreeOf marks (String.ofList before ++ s ++ String.ofList after) :=
  ((ofList hbefore).append h).append (ofList hafter)

theorem mono {cs : List Char} (h : FreeOf marks s) (hcs : cs ⊆ s.toList) :
    FreeOf marks (String.ofList cs) := by
  intro mark hmark hmem
  rw [String.toList_ofList] at hmem
  exact h mark hmark (hcs hmem)

/-- Trimming a text adds no sign. -/
theorem trim (h : FreeOf marks s) : FreeOf marks (Text.trim s) := by
  refine h.mono fun c hc => ?_
  rw [trimChars, List.mem_reverse] at hc
  have hrest := (List.dropWhile_sublist _).subset hc
  exact (List.dropWhile_sublist _).subset (List.mem_reverse.mp hrest)

theorem escape (hmarks : '\\' ∉ marks) (h : FreeOf marks s) :
    FreeOf marks (Literal.escape s) := by
  intro mark hmark
  have hs := h mark hmark
  have hne : mark ≠ '\\' := ne_of_mem_of_not_mem hmark hmarks
  rw [Literal.escape, String.toList_ofList]
  generalize s.toList = cs at hs
  induction cs with
  | nil => exact hs
  | cons c rest ih =>
      rw [List.mem_cons, not_or] at hs
      unfold Literal.escapeChars
      split <;> simp [hne, hs.1, ih hs.2]

theorem intercalate (hs : FreeOf marks s) {parts : List String}
    (hparts : ∀ part ∈ parts, FreeOf marks part) : FreeOf marks (s.intercalate parts) := by
  induction parts with
  | nil => simp [FreeOf]
  | cons first rest ih =>
      rw [List.forall_mem_cons] at hparts
      cases rest with
      | nil => simpa using hparts.1
      | cons second others =>
          rw [String.intercalate_cons_cons]
          exact (hparts.1.append hs).append (ih hparts.2)

section Numerals

variable (hdigits : marks.any Char.isDigit = false)

include hdigits

theorem repr (n : Nat) : FreeOf marks n.repr := by
  intro mark hmark hmem
  rw [Nat.toList_repr] at hmem
  have hdigit := Nat.isDigit_of_mem_toDigits (by decide) (by decide) hmem
  rw [List.any_eq_false] at hdigits
  exact hdigits mark hmark hdigit

/-- A whole number is written with digits and a sign. -/
theorem toString_int (hminus : '-' ∉ marks) (i : Int) : FreeOf marks (toString i) := by
  have hsign : FreeOf marks "-" := by
    intro mark hmark hmem
    rw [List.mem_singleton.mp hmem] at hmark
    exact hminus hmark
  cases i with
  | ofNat n => exact repr hdigits n
  | negSucc n => exact hsign.append (repr hdigits (n + 1))

end Numerals

section Signs

variable (hmarks : AreSigns marks)

include hmarks

theorem of_letters (h : s.toList.all Char.isAlpha = true) : FreeOf marks s := by
  intro mark hmark hmem
  have hletter := List.all_eq_true.mp h mark hmem
  rw [(hmarks mark hmark).2.2] at hletter
  cases hletter

theorem faceted (h : FreeOf marks s) (f : Facet) : FreeOf marks (Naming.faceted f s) := by
  cases f with
  | implementation => exact h
  | interface => exact (of_letters hmarks (by decide)).append h

/-- Capitalizing a name adds no sign. -/
theorem capitalize (h : FreeOf marks s) : FreeOf marks (Text.capitalize s) := by
  intro mark hmark
  have hs := h mark hmark
  rw [Text.capitalize, String.toList_ofList]
  cases hcs : s.toList with
  | nil => exact List.not_mem_nil
  | cons c rest =>
      rw [hcs, List.mem_cons, not_or] at hs
      rw [capitalizeChars, List.mem_append, not_or]
      exact ⟨not_mem_upper (hmarks mark hmark) (Ne.symm hs.1), hs.2⟩

theorem lowerFirst (h : FreeOf marks s) : FreeOf marks (Text.lowerFirst s) := by
  intro mark hmark
  have hs := h mark hmark
  rw [Text.lowerFirst, String.toList_ofList]
  cases hcs : s.toList with
  | nil => exact List.not_mem_nil
  | cons c rest =>
      rw [hcs, List.mem_cons, not_or] at hs
      rw [lowerFirstChars, List.mem_append, not_or]
      exact ⟨not_mem_lower (hmarks mark hmark) (Ne.symm hs.1), hs.2⟩

/-- The words of a name hold no sign besides the blanks between them. -/
theorem splitWords (hblank : ' ' ∉ marks) (h : FreeOf marks s) :
    FreeOf marks (Text.splitWords s) := by
  intro mark hmark
  have hs := h mark hmark
  have hne : mark ≠ ' ' := ne_of_mem_of_not_mem hmark hblank
  rw [Text.splitWords, String.toList_ofList]
  generalize s.toList = cs at hs
  generalize false = afterSmall
  induction cs generalizing afterSmall with
  | nil => exact List.not_mem_nil
  | cons c rest ih =>
      rw [List.mem_cons, not_or] at hs
      have hgap : mark ∉ if isCapital c && afterSmall then [' '] else [] := by
        split <;> simp [hne]
      simp only [splitWordsFrom, List.mem_append, not_or]
      exact ⟨⟨hgap, not_mem_lower (hmarks mark hmark) (Ne.symm hs.1)⟩, ih hs.2 _⟩

/-- A qualified name holds no sign besides the colons between its parts. -/
theorem titleizeNamespace (hcolon : ':' ∉ marks) (h : FreeOf marks s) :
    FreeOf marks (Text.titleizeNamespace s) := by
  refine intercalate ?_ fun part hpart => ?_
  · intro mark hmark
    have hne : mark ≠ ':' := ne_of_mem_of_not_mem hmark hcolon
    simpa using hne
  · obtain ⟨segment, hsegment, rfl⟩ := List.mem_map.mp hpart
    have hpiece : FreeOf marks (String.ofList segment) :=
      h.mono (subset_of_mem_splitAtChar (List.mem_filter.mp hsegment).1)
    have hcapital := hpiece.capitalize hmarks
    rwa [Text.capitalize, String.toList_ofList] at hcapital

end Signs

end FreeOf

end Text

/-! ## Names of declarations -/

/-- The names of the model that the names of an element's declarations are made of. -/
def Element.names : Element → List String
  | .ofEnum e => [e.name]
  | .ofClass c => [c.name]
  | .ofProperty owner p => [owner.name, p.name]

open Text

/-- Naming conventions add none of some signs to the names that they derive. -/
structure Naming.Keeps (naming : Naming) (marks : List Char) : Prop where
  signs : AreSigns marks
  toType : ∀ name, FreeOf marks name → FreeOf marks (naming.toType name)
  escape : ∀ word ∈ naming.reserved, FreeOf marks word → FreeOf marks (naming.escape word)

/-- The usual conventions add no sign other than an underscore. -/
theorem Cpp.naming_keeps {marks : List Char} (hmarks : AreSigns marks) (h : '_' ∉ marks) :
    naming.Keeps marks where
  signs := hmarks
  toType _ hname := hname.capitalize hmarks
  escape _ _ hword := hword.append (.ofList (by simpa using h))

namespace Naming.Keeps

variable {marks : List Char} {naming : Naming} (h : naming.Keeps marks)

include h

theorem safeName {name : String} (hname : FreeOf marks name) :
    FreeOf marks (naming.safeName name) := by
  unfold Naming.safeName
  split
  · next hreserved => exact h.escape name (List.contains_iff_mem.mp hreserved) hname
  · exact hname

theorem typeName {name : String} (hname : FreeOf marks name) :
    FreeOf marks (naming.typeName name) :=
  h.safeName (h.toType name hname)

theorem builderName {f : Facet} {base : String} (hbase : FreeOf marks base) :
    FreeOf marks (naming.builderName f base) := by
  have hsuffix : FreeOf marks "RequestBuilder" := .of_letters h.signs (by decide)
  exact h.safeName ((hbase.append hsuffix).faceted h.signs f)

theorem collectionName {owner : ClassDecl} {p : Property} (howner : FreeOf marks owner.name)
    (hp : FreeOf marks p.name) : FreeOf marks (naming.collectionName owner p) := by
  have hsuffix : FreeOf marks "Collection" := .of_letters h.signs (by decide)
  exact ((h.toType _ howner).append (h.toType _ hp)).append hsuffix

theorem baseName {element : Element} (helement : ∀ name ∈ element.names, FreeOf marks name) :
    FreeOf marks (naming.baseName element) := by
  cases element with
  | ofEnum e => exact h.toType _ (helement _ (List.mem_singleton_self _))
  | ofClass c => exact h.toType _ (helement _ (List.mem_singleton_self _))
  | ofProperty owner p =>
      simp only [Element.names, List.forall_mem_cons] at helement
      exact h.collectionName helement.1 helement.2.1

/-- The name of a declaration holds none of the signs if no name of its element does. -/
theorem roleName {element : Element} (helement : ∀ name ∈ element.names, FreeOf marks name)
    (role : Role) : FreeOf marks (naming.roleName element role) := by
  have hsuffix : FreeOf marks role.suffix := by
    refine .of_letters h.signs ?_
    cases role <;> simp only [Role.suffix] <;> decide
  exact h.safeName (((h.baseName helement).append hsuffix).faceted h.signs role.facet)

theorem linkedBuilder {owner : ClassDecl} {p : Property} (howner : FreeOf marks owner.name)
    (hname : FreeOf marks p.name) (htype : FreeOf marks p.type) (f : Facet) :
    FreeOf marks (naming.linkedBuilder owner p f) := by
  refine h.builderName ?_
  unfold Naming.linkedName
  split
  · exact h.collectionName howner hname
  · split
    · exact h.toType _ htype
    · exact h.toType _ hname

theorem itemBuilder {p : Property} (htype : FreeOf marks p.type) (f : Facet) :
    FreeOf marks (naming.itemBuilder p f) :=
  h.builderName (h.toType _ htype)

end Naming.Keeps

/-- A target adds none of some signs to the names and the types that it spells. -/
structure Target.Keeps (target : Target) (marks : List Char) : Prop
    extends target.naming.Keeps marks where
  spellings : ∀ row ∈ target.primitiveTypes, FreeOf marks row.2

/-- The spelling of a type holds none of the signs if its name in the model does not. -/
theorem Target.Keeps.resolve {target : Target} {marks : List Char} (h : target.Keeps marks)
    {type : String} (htype : FreeOf marks type) : FreeOf marks (target.resolve type).text := by
  unfold Target.resolve
  cases hprimitive : target.primitive? type with
  | none => exact h.typeName htype
  | some spelling =>
      obtain ⟨row, hrow, rfl⟩ := Option.map_eq_some_iff.mp hprimitive
      exact h.spellings row (List.mem_of_find?_eq_some hrow)

end SdkHeaders
