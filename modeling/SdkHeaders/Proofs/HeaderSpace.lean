import SdkHeaders.Proofs.Generation
import SdkHeaders.Proofs.HeaderText
import SdkHeaders.Proofs.LoadedModel
import SdkHeaders.Proofs.NameCharacters
import SdkHeaders.Proofs.ParentFolders
import SdkHeaders.Proofs.UniqueNames

/-!
# Namespaces of headers

The namespace that the headers of a model are declared in.  It is put together from the segments of
the model's namespace between its dots.  A loaded model has a namespace with a character that is not
blank, but this character may be a dot, and other segments may be blank.

Main results:

- Definition `Text.qualifiedParts` cuts a qualified name at its double colons, and
  `Text.PartsNamed` says that no part is empty or blank.
- Theorem `Text.exists_not_blank_upper`: capitalizing neither makes nor removes a blank, so that by
  theorem `Text.partsNamed_titleizeNamespace` the case of letters does not matter.
- Theorem `Text.partsNamed_spelledSpace`: without colons in the namespace the parts are its nonempty
  segments.
- Theorem `SourceFile.headerSpace_named_iff_of_load` says which loaded models have headers in a
  properly named namespace.
-/

namespace SdkHeaders

namespace Text

/-! ## Blanks and letter case -/

/-- What a character is capitalized to: another character of ASCII, an expansion, the image under a
run, or the character itself. -/
theorem upper_cases (c : Char) :
    (c.toNat < 128 ∧ upper c = [c.toUpper]) ∨
      (∃ codes, (c.toNat, codes) ∈ upperExpansions ∧ upper c = codes.map Char.ofNat) ∨
      (∃ run ∈ upperRuns, run.first ≤ c.toNat ∧ c.toNat ≤ run.last ∧
        upper c = [Char.ofNat (run.image + (c.toNat - run.first))]) ∨
      upper c = [c] := by
  by_cases hascii : c.toNat < 128
  · exact .inl ⟨hascii, if_pos hascii⟩
  have hupper : upper c = mapCode upperExpansions upperRuns c.toNat := if_neg hascii
  rw [hupper]
  unfold mapCode
  split
  · exact .inr (.inr (.inr (by rw [Char.ofNat_toNat])))
  · next first more hlookup =>
      obtain ⟨before, after, hrows, -⟩ := List.lookup_eq_some_iff.mp hlookup
      exact .inr (.inl ⟨first :: more, by simp [hrows], rfl⟩)
  · unfold shiftCode
    split
    · next run hfind =>
        have hholds := List.find?_some hfind
        simp only [CaseRun.holds, Bool.and_eq_true, decide_eq_true_eq] at hholds
        exact .inr (.inr (.inl ⟨run, List.mem_of_find?_eq_some hfind, hholds.1.1, hholds.1.2, rfl⟩))
    · exact .inr (.inr (.inr (by rw [Char.ofNat_toNat])))

/-- A code lies in none of the ranges of blanks. -/
theorem isBlank_ofNat_eq_false {code : Nat}
    (h : ∀ range ∈ blankRanges, code < range.1 ∨ range.2 < code) :
    isBlank (Char.ofNat code) = false := by
  by_cases hvalid : code.isValidChar
  · have hcode : (Char.ofNat code).toNat = code := by
      rw [Char.ofNat, dif_pos hvalid]
      rfl
    apply List.any_eq_false.mpr
    intro range hrange
    have hout := h range hrange
    rw [hcode, Bool.and_eq_true, decide_eq_true_eq, decide_eq_true_eq]
    omega
  · have hzero : Char.ofNat code = '\x00' := dif_neg hvalid
    rw [hzero]
    decide

/-- Capitalizing a character neither makes nor removes a blank. -/
theorem exists_not_blank_upper (c : Char) :
    (∃ d ∈ upper c, isBlank d = false) ↔ isBlank c = false := by
  have hascii : ∀ code < 128, isBlank (Char.ofNat code).toUpper = isBlank (Char.ofNat code) := by
    decide
  have hexpansions : ∀ row ∈ upperExpansions,
      isBlank (Char.ofNat row.1) = false ∧ ∃ code ∈ row.2, isBlank (Char.ofNat code) = false := by
    decide +kernel
  have hruns : ∀ run ∈ upperRuns, ∀ range ∈ blankRanges,
      (run.last < range.1 ∨ range.2 < run.first) ∧
        (run.image + (run.last - run.first) < range.1 ∨ range.2 < run.image) := by
    decide +kernel
  rcases upper_cases c with ⟨hlow, hupper⟩ | ⟨codes, hrow, hupper⟩ |
    ⟨run, hrun, hfirst, hlast, hupper⟩ | hupper
  · have hsame := hascii c.toNat hlow
    rw [Char.ofNat_toNat] at hsame
    simp [hupper, hsame]
  · obtain ⟨hdomain, code, hcode, hblank⟩ := hexpansions _ hrow
    rw [Char.ofNat_toNat] at hdomain
    rw [hupper]
    exact iff_of_true ⟨_, List.mem_map_of_mem hcode, hblank⟩ hdomain
  · have hdomain : isBlank (Char.ofNat c.toNat) = false := by
      apply isBlank_ofNat_eq_false
      intro range hrange
      have hout := (hruns run hrun range hrange).1
      omega
    have himage : isBlank (Char.ofNat (run.image + (c.toNat - run.first))) = false := by
      apply isBlank_ofNat_eq_false
      intro range hrange
      have hout := (hruns run hrun range hrange).2
      omega
    rw [Char.ofNat_toNat] at hdomain
    rw [hupper]
    exact iff_of_true ⟨_, List.mem_singleton_self _, himage⟩ hdomain
  · simp [hupper]

/-! ## Parts of qualified names -/

/-- The parts of a character list between double colons, which are taken from left to right. -/
def qualifiedParts : List Char → List (List Char)
  | [] => [[]]
  | ':' :: ':' :: rest => [] :: qualifiedParts rest
  | c :: rest => (qualifiedParts rest).modifyHead (c :: ·)

/-- A part of a name has a character that is not blank. -/
def IsNamed (part : List Char) : Prop :=
  ∃ c ∈ part, isBlank c = false

instance (part : List Char) : Decidable (IsNamed part) :=
  List.decidableBEx (fun c => isBlank c = false) part

/-- No part of a qualified name is empty or blank. -/
def PartsNamed (s : String) : Prop :=
  ∀ part ∈ qualifiedParts s.toList, IsNamed part

instance (s : String) : Decidable (PartsNamed s) :=
  List.decidableBAll IsNamed (qualifiedParts s.toList)

theorem qualifiedParts_cons {c : Char} {rest : List Char}
    (h : c = ':' → rest.head? ≠ some ':') :
    qualifiedParts (c :: rest) = (qualifiedParts rest).modifyHead (c :: ·) := by
  rw [qualifiedParts]
  rintro more rfl rfl
  exact h rfl rfl

/-- Characters other than colons belong to the first part. -/
theorem qualifiedParts_append {word : List Char} (h : ':' ∉ word) (rest : List Char) :
    qualifiedParts (word ++ rest) = (qualifiedParts rest).modifyHead (word ++ ·) := by
  induction word with
  | nil =>
      rw [List.nil_append]
      cases qualifiedParts rest <;> rfl
  | cons c cs ih =>
      rw [List.mem_cons, not_or] at h
      rw [List.cons_append, qualifiedParts_cons fun hc => absurd hc.symm h.1, ih h.2]
      cases qualifiedParts rest <;> rfl

theorem modifyHead_append_nil (word : List Char) (parts : List (List Char)) :
    ([] :: parts).modifyHead (word ++ ·) = word :: parts := by
  rw [List.modifyHead_cons, List.append_nil]

/-- The parts of words between double colons are the words. -/
theorem qualifiedParts_intercalate {words : List (List Char)} (hne : words ≠ [])
    (hfree : ∀ word ∈ words, ':' ∉ word) :
    qualifiedParts ([':', ':'].intercalate words) = words := by
  induction words with
  | nil => exact absurd rfl hne
  | cons word rest ih =>
      rw [List.forall_mem_cons] at hfree
      cases rest with
      | nil =>
          have hword := qualifiedParts_append hfree.1 []
          rw [List.append_nil, qualifiedParts, modifyHead_append_nil] at hword
          simpa using hword
      | cons next others =>
          rw [List.intercalate_cons_cons, List.append_assoc, qualifiedParts_append hfree.1,
            List.cons_append, List.singleton_append, qualifiedParts, modifyHead_append_nil,
            ih (List.cons_ne_nil next others) hfree.2]

/-! ## Parts of capitalized names -/

/-- The second list of characters has some characters of the first one capitalized, among them no
colon. -/
inductive Recased : List Char → List Char → Prop
  | nil : Recased [] []
  | keep (c : Char) {cs ds : List Char} : Recased cs ds → Recased (c :: cs) (c :: ds)
  | capital {c : Char} {cs ds : List Char} (h : c ≠ ':') :
      Recased cs ds → Recased (c :: cs) (upper c ++ ds)

namespace Recased

variable {cs ds cs' ds' : List Char}

theorem refl (cs : List Char) : Recased cs cs := by
  induction cs with
  | nil => exact nil
  | cons c rest ih => exact keep c ih

theorem append (h : Recased cs ds) (h' : Recased cs' ds') : Recased (cs ++ cs') (ds ++ ds') := by
  induction h with
  | nil => exact h'
  | keep c _ ih => exact keep c ih
  | capital hc _ ih =>
      rw [List.append_assoc]
      exact capital hc ih

/-- A colon is its own capital form, and all other first characters are capitalized. -/
theorem capitalizeChars (cs : List Char) : Recased cs (capitalizeChars cs) := by
  cases cs with
  | nil => exact nil
  | cons c rest =>
      by_cases hc : c = ':'
      · have hupper : upper ':' = [':'] := by decide
        rw [Text.capitalizeChars, hc, hupper]
        exact keep ':' (refl rest)
      · exact capital hc (refl rest)

/-- No colon comes to the front. -/
theorem head?_ne (h : Recased cs ds) (hcs : cs.head? ≠ some ':') : ds.head? ≠ some ':' := by
  cases h with
  | nil => exact hcs
  | keep c _ => exact hcs
  | @capital c _ _ hc _ =>
      obtain ⟨d, more, hupper⟩ := List.exists_cons_of_ne_nil (upper_ne_nil c)
      have hcolon : ':' ∉ upper c := not_mem_upper (by decide) hc
      rw [hupper, List.mem_cons, not_or] at hcolon
      rw [hupper, List.cons_append, List.head?_cons]
      exact fun heq => hcolon.1 (Option.some.inj heq).symm

theorem intercalate (separator : List Char) (words : List (List Char)) :
    Recased (separator.intercalate words)
      (separator.intercalate (words.map Text.capitalizeChars)) := by
  induction words with
  | nil => exact refl []
  | cons word rest ih =>
      cases rest with
      | nil => simpa using capitalizeChars word
      | cons next others =>
          rw [List.map_cons, List.map_cons, List.intercalate_cons_cons,
            List.intercalate_cons_cons]
          exact ((capitalizeChars word).append (refl separator)).append ih

end Recased

theorem isNamed_append {cs ds : List Char} : IsNamed (cs ++ ds) ↔ IsNamed cs ∨ IsNamed ds := by
  simp only [IsNamed, List.mem_append, or_and_right, exists_or]

/-- Two lists of parts have names at the same places. -/
abbrev NamedAlike (parts others : List (List Char)) : Prop :=
  List.Forall₂ (fun part other => IsNamed part ↔ IsNamed other) parts others

theorem NamedAlike.modifyHead {parts others : List (List Char)} (h : NamedAlike parts others)
    {word other : List Char} (hword : IsNamed word ↔ IsNamed other) :
    NamedAlike (parts.modifyHead (word ++ ·)) (others.modifyHead (other ++ ·)) := by
  cases h with
  | nil => exact .nil
  | cons hpart hrest =>
      refine .cons ?_ hrest
      rw [isNamed_append, isNamed_append, hword, hpart]

theorem NamedAlike.forall_iff {parts others : List (List Char)} (h : NamedAlike parts others) :
    (∀ part ∈ parts, IsNamed part) ↔ ∀ other ∈ others, IsNamed other := by
  induction h with
  | nil => exact Iff.rfl
  | cons hpart _ ih => rw [List.forall_mem_cons, List.forall_mem_cons, hpart, ih]

/-- Capitalizing characters other than colons keeps the double colons, and with them the parts that
are named. -/
theorem Recased.namedAlike {cs ds : List Char} (h : Recased cs ds) :
    NamedAlike (qualifiedParts cs) (qualifiedParts ds) := by
  fun_induction qualifiedParts cs generalizing ds with
  | case1 =>
      cases h
      exact .cons Iff.rfl .nil
  | case2 rest ih =>
      -- two colons are both kept
      cases h with
      | capital hc _ => exact absurd rfl hc
      | keep _ h =>
          cases h with
          | capital hc _ => exact absurd rfl hc
          | keep _ h => exact .cons Iff.rfl (ih h)
  | case3 c rest hpair ih =>
      cases h with
      | @keep _ _ ds h =>
          have hhead : c = ':' → ds.head? ≠ some ':' := by
            intro hc
            apply h.head?_ne
            intro hrest
            obtain ⟨more, hmore⟩ := List.head?_eq_some_iff.mp hrest
            exact hpair more hc hmore
          rw [qualifiedParts_cons hhead]
          have hword : IsNamed [c] ↔ IsNamed [c] := Iff.rfl
          exact (ih h).modifyHead hword
      | @capital _ _ ds hc h =>
          rw [qualifiedParts_append (not_mem_upper (by decide) hc)]
          have hword : IsNamed [c] ↔ IsNamed (upper c) := by
            rw [IsNamed, IsNamed, exists_not_blank_upper c]
            simp
          exact (ih h).modifyHead hword

/-! ## The namespace and its segments -/

/-- The nonempty segments of a dotted name. -/
def segments (dotted : String) : List (List Char) :=
  (splitAtChar '.' dotted.toList).filter fun segment => !segment.isEmpty

/-- The nonempty segments of a dotted name, joined by double colons and not capitalized. -/
def spelledSpace (dotted : String) : String :=
  "::".intercalate ((segments dotted).map String.ofList)

theorem toList_spelledSpace (dotted : String) :
    (spelledSpace dotted).toList = [':', ':'].intercalate (segments dotted) := by
  rw [spelledSpace, String.toList_intercalate, List.map_map]
  simp [Function.comp_def]

theorem toList_titleizeNamespace (dotted : String) :
    (titleizeNamespace dotted).toList =
      [':', ':'].intercalate ((segments dotted).map capitalizeChars) := by
  rw [titleizeNamespace, String.toList_intercalate, namespaceParts, List.map_map]
  simp [Function.comp_def, segments]

/-- Whether the parts of a namespace are named does not depend on the case of its letters. -/
theorem partsNamed_titleizeNamespace (dotted : String) :
    PartsNamed (titleizeNamespace dotted) ↔ PartsNamed (spelledSpace dotted) := by
  have hrecased := Recased.intercalate [':', ':'] (segments dotted)
  rw [PartsNamed, PartsNamed, toList_titleizeNamespace, toList_spelledSpace]
  exact hrecased.namedAlike.forall_iff.symm

theorem mem_segments_iff {dotted : String} {segment : List Char} :
    segment ∈ segments dotted ↔ segment ∈ splitAtChar '.' dotted.toList ∧ segment ≠ [] := by
  simp [segments, List.mem_filter]

/-- Only a name that consists of dots has no segment. -/
theorem segments_eq_nil_iff (dotted : String) :
    segments dotted = [] ↔ ∀ c ∈ dotted.toList, c = '.' := by
  rw [segments]
  induction dotted.toList with
  | nil => simp [splitAtChar]
  | cons c rest ih =>
      rw [List.forall_mem_cons, splitAtChar]
      by_cases hc : c = '.'
      · rw [if_pos hc, ← ih]
        simp [hc]
      · rw [if_neg hc]
        cases splitAtChar '.' rest <;> simp [hc]

/-- The namespace of the headers is empty only if that of the model consists of dots. -/
theorem titleizeNamespace_eq_empty_iff (dotted : String) :
    titleizeNamespace dotted = "" ↔ ∀ c ∈ dotted.toList, c = '.' := by
  rw [← segments_eq_nil_iff, ← String.toList_inj, toList_titleizeNamespace, String.toList_empty]
  cases hsegments : segments dotted with
  | nil => exact iff_of_true rfl rfl
  | cons segment rest =>
      have hsegment : segment ∈ segments dotted := hsegments ▸ List.mem_cons_self
      have hcapital : capitalizeChars segment ≠ [] :=
        mt (capitalizeChars_eq_nil_iff segment).mp (mem_segments_iff.mp hsegment).2
      refine iff_of_false ?_ (List.cons_ne_nil segment rest)
      cases rest with
      | nil => simpa using hcapital
      | cons next others =>
          rw [List.map_cons, List.map_cons, List.intercalate_cons_cons, List.append_assoc]
          exact List.append_ne_nil_of_left_ne_nil hcapital _

/-- Without colons the parts of a namespace are its nonempty segments. -/
theorem partsNamed_spelledSpace {dotted : String} (h : ':' ∉ dotted.toList) :
    PartsNamed (spelledSpace dotted) ↔
      segments dotted ≠ [] ∧ ∀ segment ∈ segments dotted, IsNamed segment := by
  have hfree : ∀ segment ∈ segments dotted, ':' ∉ segment := fun segment hsegment hcolon =>
    h (subset_of_mem_splitAtChar (mem_segments_iff.mp hsegment).1 hcolon)
  rw [PartsNamed, toList_spelledSpace]
  by_cases hnil : segments dotted = []
  · have hempty : ¬ IsNamed [] := by decide
    simp [hnil, qualifiedParts, hempty]
  · rw [qualifiedParts_intercalate hnil hfree, and_iff_right hnil]

/-- A namespace without dots and colons is a single part. -/
theorem partsNamed_of_single {dotted : String} (hdot : '.' ∉ dotted.toList)
    (hcolon : ':' ∉ dotted.toList) (h : IsNamed dotted.toList) :
    PartsNamed (spelledSpace dotted) := by
  have hne : dotted.toList ≠ [] := by
    obtain ⟨c, hc, -⟩ := h
    exact List.ne_nil_of_mem hc
  have hsegments : segments dotted = [dotted.toList] := by
    rw [segments, splitAtChar_of_not_mem hdot]
    simp [hne]
  rw [partsNamed_spelledSpace hcolon, hsegments]
  exact ⟨List.cons_ne_nil _ _, List.forall_mem_singleton.mpr h⟩

end Text

open Text

/-! ## Headers and their namespace -/

namespace Entity

/-- The text of a header in front of its namespace. -/
def opening (target : Target) (e : Entity) : String :=
  Layout.render target.indent ([.line "#pragma once", .blank] ++ includeLayout (e.includes target))

/-- A header declares everything in its namespace. -/
theorem exists_fileText_eq (target : Target) (space : String) (e : Entity) :
    ∃ body, e.fileText target space =
      e.opening target ++ "namespace " ++ space ++ "\n\x7b\n" ++ body ++ "\x7d\n" := by
  refine ⟨unlines (Layout.linesOf target.indent 1 (.text (e.declarationText target) ::
    (e.functionTexts target).flatMap fun f => [.blank, .text f])), ?_⟩
  have hopened : "\n\x7b\n" = "\n" ++ ("\x7b" ++ "\n") := rfl
  have hclosed : "\x7d\n" = "\x7d" ++ "\n" := rfl
  rw [fileText, fileLayout, opening, Layout.render_eq, Layout.render_eq, Layout.linesOf_append,
    unlines_append, hopened, hclosed]
  simp only [Layout.linesOf_cons, Layout.linesOf_nil, Layout.linesOfOne_line_zero,
    Layout.linesOfOne_braced_zero, List.singleton_append, List.append_nil, unlines,
    unlines_append, String.append_assoc, String.append_empty]

end Entity

namespace Model

/-- A header of a model declares everything in the namespace of the headers. -/
theorem exists_opening_of_mem_files {setting : Header.Setting} {model : Model}
    {fs : List (String × String)} (hfs : model.files setting = .ok fs) {f : String × String}
    (hf : f ∈ fs) :
    ∃ e : Entity, f.1 = setting.target.headerFile e.name ∧ ∃ body, f.2 =
      e.opening setting.target ++ "namespace " ++ model.headerSpace ++ "\n\x7b\n" ++ body ++
        "\x7d\n" := by
  obtain ⟨es, -, rfl⟩ := files_eq_ok_iff.mp hfs
  obtain ⟨e, -, rfl⟩ := List.mem_map.mp hf
  exact ⟨e, rfl, e.exists_fileText_eq setting.target model.headerSpace⟩

/-- What opens the namespace of a header stands in the text of the header. -/
theorem within_of_opening {text before space body : String}
    (h : text = before ++ "namespace " ++ space ++ "\n\x7b\n" ++ body ++ "\x7d\n") :
    Within ("namespace " ++ space ++ "\n\x7b\n") text := by
  apply within_of_eq before (body ++ "\x7d\n")
  simp only [h, String.append_assoc]

/-- A model that is made from a file has its namespace. -/
theorem space_ofFile (file : ModelFile) : (ofFile file).space = file.space := by
  rw [ofFile, foldl_addClass, foldl_addEnum]
  rfl

end Model

namespace SourceFile

/-- The namespace of a loaded model has a character that is not blank. -/
theorem isNamed_space_of_load {file : SourceFile} {format : Format} {model : Model}
    (h : file.load format = .ok model) : IsNamed model.space.toList := by
  obtain ⟨declared, -, hvalidate, rfl⟩ := load_eq_ok_iff.mp h
  rw [Model.space_ofFile]
  exact (declared.validate_eq_ok_iff.mp hvalidate).space

/-- The headers of a loaded model are declared in a namespace that is not empty unless that of the
model consists of dots.  Its parts are all named exactly if those of the namespace are that is
spelled with double colons between the nonempty segments of the model's namespace; without colons
these are the segments themselves, and without colons and dots there is one that is named. -/
theorem headerSpace_named_iff_of_load {file : SourceFile} {format : Format} {model : Model}
    (h : file.load format = .ok model) :
    (∀ setting fs, model.files setting = .ok fs → ∀ f ∈ fs,
      ∃ e : Entity, f.1 = setting.target.headerFile e.name ∧ ∃ body, f.2 =
        e.opening setting.target ++ "namespace " ++ model.headerSpace ++ "\n\x7b\n" ++ body ++
          "\x7d\n") ∧
      (model.headerSpace ≠ "" ↔ ∃ c ∈ model.space.toList, c ≠ '.') ∧
      (model.headerSpace ≠ "" ∧ PartsNamed model.headerSpace ↔
        PartsNamed (spelledSpace model.space)) ∧
      (':' ∉ model.space.toList →
        (model.headerSpace ≠ "" ∧ PartsNamed model.headerSpace ↔
          segments model.space ≠ [] ∧ ∀ segment ∈ segments model.space, IsNamed segment)) ∧
      (':' ∉ model.space.toList → '.' ∉ model.space.toList →
        model.headerSpace ≠ "" ∧ PartsNamed model.headerSpace) := by
  have hparts : model.headerSpace ≠ "" ∧ PartsNamed model.headerSpace ↔
      PartsNamed (spelledSpace model.space) := by
    rw [Model.headerSpace, ← partsNamed_titleizeNamespace]
    refine and_iff_right_of_imp ?_
    intro hnamed hempty
    rw [hempty] at hnamed
    exact absurd hnamed (by decide)
  refine ⟨fun setting fs hfs f hf => Model.exists_opening_of_mem_files hfs hf, ?_, hparts, ?_, ?_⟩
  · rw [Model.headerSpace, ne_eq, titleizeNamespace_eq_empty_iff]
    simp only [not_forall, exists_prop]
  · intro hcolon
    rw [hparts, partsNamed_spelledSpace hcolon]
  · intro hcolon hdot
    exact hparts.mpr (partsNamed_of_single hdot hcolon (isNamed_space_of_load h))

end SourceFile

/-- A document whose namespace has an empty segment. -/
def acmeFile : SourceFile where
  name := "model.json"
  text := "[\"com..acme\", [[\"color\"]]]"

/-- The model of a color in a namespace. -/
def colorIn (space : String) : Model :=
  (Model.new space).addEnum (emptyEnum "color")

/-- A document whose namespace has neither dots nor colons. -/
def plainFile : SourceFile where
  name := "model.json"
  text := "[\"acme\", [[\"color\"]]]"

/-- The empty segment is left out of the namespace of the headers, and a single segment is its own
namespace. -/
theorem acmeFile_headerSpace_named :
    acmeFile.load .json = .ok (colorIn "com..acme") ∧ ':' ∉ (colorIn "com..acme").space.toList ∧
      (colorIn "com..acme").headerSpace = "Com::Acme" ∧
      PartsNamed (colorIn "com..acme").headerSpace ∧ ∃ text,
        (colorIn "com..acme").files (Model.standardSetting Model.defaultServiceUrl) =
            .ok [("Color.h", text)] ∧
          Within "namespace Com::Acme\n\x7b\n" text ∧
      plainFile.load .json = .ok (colorIn "acme") ∧ ':' ∉ (colorIn "acme").space.toList ∧
        '.' ∉ (colorIn "acme").space.toList ∧ PartsNamed (colorIn "acme").headerSpace := by
  have hload : acmeFile.load .json = .ok (colorIn "com..acme") := by decide +kernel
  have hcolon : ':' ∉ (colorIn "com..acme").space.toList := by decide
  have hspace : (colorIn "com..acme").headerSpace = "Com::Acme" := by decide +kernel
  obtain ⟨text, hfiles⟩ : ∃ text, (colorIn "com..acme").files
      (Model.standardSetting Model.defaultServiceUrl) = .ok [("Color.h", text)] := ⟨_, rfl⟩
  obtain ⟨hopened, -, -, hsegments, -⟩ := SourceFile.headerSpace_named_iff_of_load hload
  obtain ⟨e, -, body, htext⟩ := hopened _ _ hfiles _ (List.mem_singleton_self _)
  have hwithin := Model.within_of_opening htext
  rw [hspace] at hwithin
  have hplain : plainFile.load .json = .ok (colorIn "acme") := by decide +kernel
  obtain ⟨-, -, -, -, hsingle⟩ := SourceFile.headerSpace_named_iff_of_load hplain
  exact ⟨hload, hcolon, hspace, ((hsegments hcolon).mpr (by decide +kernel)).2, text, hfiles,
    hwithin, hplain, by decide, by decide, (hsingle (by decide) (by decide)).2⟩

/-- A document whose namespace consists of a dot. -/
def dotFile : SourceFile where
  name := "model.json"
  text := "[\".\", [[\"color\"]]]"

/-- A namespace of dots is accepted, and leaves the namespace of the headers without a name. -/
theorem dotFile_headerSpace_unnamed :
    dotFile.load .json = .ok (colorIn ".") ∧ (colorIn ".").headerSpace = "" ∧
      ¬ PartsNamed (colorIn ".").headerSpace ∧ ∃ text,
        (colorIn ".").files (Model.standardSetting Model.defaultServiceUrl) =
            .ok [("Color.h", text)] ∧
          Within "namespace \n\x7b\n" text := by
  have hspace : (colorIn ".").headerSpace = "" := by decide +kernel
  obtain ⟨text, hfiles⟩ : ∃ text, (colorIn ".").files
      (Model.standardSetting Model.defaultServiceUrl) = .ok [("Color.h", text)] := ⟨_, rfl⟩
  obtain ⟨e, -, body, htext⟩ :=
    Model.exists_opening_of_mem_files hfiles (List.mem_singleton_self _)
  refine ⟨by decide +kernel, hspace, by decide +kernel, text, hfiles, ?_⟩
  have hwithin := Model.within_of_opening htext
  rw [hspace] at hwithin
  exact hwithin

end SdkHeaders
